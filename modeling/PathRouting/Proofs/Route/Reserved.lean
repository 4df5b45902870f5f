import PathRouting.Proofs.Query.Decoding
import PathRouting.Proofs.Route.Enforcement

/-!
# The name of the query string among the parameters

The query string is taken out before its fields are read. A field may have the same name, and then
the name is back among the parameters, with the value of the field.
-/
namespace PathRouting.Route

open Pattern Mapping

variable {r : Route} {p : Pattern} {params : Mapping String} {found : Captures}

theorem decoded_eq (h : r.codec.Lawful) (found : Captures) :
    r.decoded found = (r.queryText? found).elim [] r.codec.decode := by
  rw [decoded]
  cases r.queryText? found with
  | none => rfl
  | some query =>
    dsimp only
    split
    · rename_i hempty
      rw [String.isEmpty_iff.mp hempty]
      exact h.empty.symm
    · rfl

theorem Along.nodup_found [CharacterNames] {conditions : Mapping Value} (h : r.Along p conditions)
    {path : String}
    (hrun : r.compiled.matcher.run path = some found) : (found.map Prod.fst).Nodup := by
  have hnames := h.distinct
  rw [← h.order] at hnames
  exact (Matcher.run_names hrun).nodup hnames

/-- The name of the query string is among the parameters of a match if and only if a field of the
query string is read under that name. -/
theorem parse_reserved_iff [CharacterNames] {d : Definition} {cache : Option Cache}
    (hb : d.Backed cache) (hr : (ofDefinition d .standard cache).1 = .ok r) {path method : Value}
    (h : r.parse path method = some params) : ∃ given found, path = .str given ∧
      r.compiled.matcher.run given = some found ∧
      (contains params (.str queryParam) = true ↔ ∃ query field,
        r.queryText? found = some query ∧ field ∈ Text.splitAll '&' query.toList ∧ field ≠ [] ∧
          (Query.readField field).1 = queryParam) := by
  obtain ⟨hcodec, p, conditions, halong⟩ := ofDefinition_along hb hr
  obtain ⟨given, found, rfl, hrun, rfl⟩ := parse_eq_some h
  refine ⟨given, found, rfl, hrun, ?_⟩
  have hlawful : r.codec.Lawful := hcodec ▸ Codec.standard_lawful
  rw [contains, ← named?, named?_complete_queryParam (halong.nodup_found hrun),
    decoded_eq hlawful, hcodec]
  cases r.queryText? found with
  | none => simp
  | some query =>
    rw [Option.elim_some]
    refine Query.lookup_decode_isSome_iff.trans ?_
    constructor
    · rintro ⟨field, hfield⟩
      exact ⟨query, field, rfl, hfield⟩
    · rintro ⟨query', field, hquery, hfield⟩
      obtain rfl := Option.some.inj hquery
      exact ⟨field, hfield⟩

/-- The name is hidden by an escape, in a second field, and the query string is the default. -/
theorem parse_reserved_escaped : ∃ r params given found,
    (ofDefinition ⟨.str "GET", .str "a", .str "/a", .null,
        .mapping [(.str queryParam, .str "x=1&query%5Fstring=%35")]⟩ .standard none).1 = .ok r ∧
      r.parse (.str "/a") (.str "GET") = some params ∧ Value.str "/a" = .str given ∧
      r.compiled.matcher.run given = some found ∧
      (contains params (.str queryParam) = true ↔ ∃ query field,
        r.queryText? found = some query ∧ field ∈ Text.splitAll '&' query.toList ∧ field ≠ [] ∧
          (Query.readField field).1 = queryParam) := by
  have hmade : ((ofDefinition ⟨.str "GET", .str "a", .str "/a", .null,
      .mapping [(.str queryParam, .str "x=1&query%5Fstring=%35")]⟩
      .standard none).1.toOption.bind fun r =>
        r.parse (.str "/a") (.str "GET")).isSome = true := by decide +kernel
  generalize hr : (ofDefinition _ _ _).1 = result at hmade
  cases result with
  | error e => cases hmade
  | ok r =>
    have hmade : (r.parse (.str "/a") (.str "GET")).isSome = true := hmade
    obtain ⟨params, hparse⟩ := Option.isSome_iff_exists.mp hmade
    obtain ⟨given, found, h⟩ := parse_reserved_iff (Definition.backed_none _) hr hparse
    exact ⟨r, params, given, found, rfl, hparse, h⟩

/-- A query string can give the name back to the parameters. -/
theorem parse_reserved_leaks : ∃ r params,
    (ofDefinition ⟨.str "GET", .str "a", .str "/a", .null, .null⟩ .standard none).1 = .ok r ∧
      r.parse (.str "/a?query_string=5") (.str "GET") = some params ∧
      contains params (.str queryParam) = true := by
  have hmade : ((ofDefinition ⟨.str "GET", .str "a", .str "/a", .null, .null⟩
      .standard none).1.toOption.bind fun r =>
        (r.parse (.str "/a?query_string=5") (.str "GET")).map fun params =>
          contains params (.str queryParam)) = some true := by decide +kernel
  generalize (ofDefinition _ _ _).1 = result at hmade
  cases result with
  | error e => cases hmade
  | ok r =>
    obtain ⟨params, hparse, hcontains⟩ := Option.map_eq_some_iff.mp hmade
    exact ⟨r, params, rfl, hparse, hcontains⟩

end PathRouting.Route
