import PathRouting.Proofs.Route.Acceptance
import PathRouting.Proofs.Route.Completion

/-!
# Conditions on what a match gives

What the path gives a parameter is what its condition allows. A default counts where the path has
nothing, and the query string where there is no default either; neither is checked again.
-/
namespace PathRouting

open Pattern Mapping

namespace Pattern

theorem Decomposes.holds {allowed : String → Allowed} {parts : List Segment} {s : List Char}
    {found : Captures} (h : Decomposes allowed parts s found) :
    ∀ e ∈ found, (allowed e.1).holds e.2.toList = true := by
  induction h with
  | nil => exact nofun
  | literal _ _ ih => exact ih
  | param hh _ ih =>
    intro e he
    rcases List.mem_cons.mp he with rfl | he
    · rw [String.toList_ofList]
      exact hh
    · exact ih e he
  | present _ _ _ ih ih' =>
    intro e he
    rcases List.mem_append.mp he with he | he
    · exact ih e he
    · exact ih' e he
  | absent _ _ _ ih => exact ih

end Pattern

namespace Route

variable {r : Route} {p : Pattern} {params : Mapping String}

theorem parse_eq_some {path method : Value} (h : r.parse path method = some params) :
    ∃ text found, path = .str text ∧ r.compiled.matcher.run text = some found ∧
      params = r.complete found := by
  unfold parse at h
  split at h
  · split_ifs at h
    obtain ⟨found, hrun, rfl⟩ := Option.map_eq_some_iff.mp h
    exact ⟨_, found, rfl, hrun, rfl⟩
  · cases h

/-- Where the value of a parameter of the pattern comes from. -/
inductive Origin (r : Route) (found : Captures) (name text : String) : Prop where
  | path : found.lookup name = some text → (r.allowed name).holds text.toList = true →
    Origin r found name text
  | default : found.lookup name = none → named? r.defaults name = some text →
    Origin r found name text
  | query {query : String} : found.lookup name = none → named? r.defaults name = none →
    r.queryText? found = some query → (r.codec.decode query).lookup name = some text →
    Origin r found name text

/-- The value of a parameter of the pattern is one its condition allows, or its default, or it
comes from the query string because there is neither. -/
theorem parse_origin [CharacterNames] {d : Definition} {codec : Codec} {cache : Option Cache}
    (hu : d.Unaffected cache) (hr : (ofDefinition d codec cache).1 = .ok r)
    (hp : Pattern.parse none r.pattern = .ok p) (hl : r.Listed p) {path method : Value}
    (h : r.parse path method = some params) : ∃ given found, path = .str given ∧
      r.compiled.matcher.run given = some found ∧ ∀ name ∈ p.names, ∀ text,
        named? params name = some text → r.Origin found name text := by
  obtain ⟨-, q, hmade⟩ := ofDefinition_made hu hr
  obtain rfl := hmade.eq hp
  obtain ⟨given, found, rfl, hrun, rfl⟩ := parse_eq_some h
  refine ⟨given, found, rfl, hrun, ?_⟩
  intro name hname text ht
  have hne : Value.str name ≠ .str queryParam := by
    intro he
    exact hmade.ne_queryParam hname (Value.str.inj he)
  rw [named?, get?_complete r found hne, ← named?, ← named?, ← named?, named?_ofTexts,
    named?_ofTexts, Option.map_id, id, id] at ht
  rw [hmade.run hl] at hrun
  have hholds := (decompose_sound hrun).holds
  cases hf : found.lookup name with
  | some captured =>
    rw [hf, Option.some_or, Option.some_or] at ht
    obtain rfl := Option.some.inj ht
    obtain ⟨before, after, rfl, -⟩ := List.lookup_eq_some_iff.mp hf
    exact .path hf (hholds (name, captured) (by simp))
  | none =>
    rw [hf, Option.none_or] at ht
    cases hd : named? r.defaults name with
    | some fallback =>
      rw [hd, Option.some_or] at ht
      exact .default hf (hd.trans ht)
    | none =>
      rw [hd, Option.none_or] at ht
      obtain ⟨query, hquery, hdecoded⟩ := mem_decoded ht
      exact .query hf hd hquery hdecoded

/-- A path gives a listed value, and what the query string says does not count. -/
theorem parse_origin_listed : ∃ r params given found,
    (ofDefinition ⟨.str "GET", .str "paint", .str "/paint(/<color>)",
        .mapping [(.str "color", .list [.str "red", .str "blue"])], .null⟩ .standard none).1 =
          .ok r ∧
      r.parse (.str "/paint/red?color=green") (.str "GET") = some params ∧
      Value.str "/paint/red?color=green" = .str given ∧
      r.compiled.matcher.run given = some found ∧ r.Origin found "color" "red" := by
  have hmade : ((ofDefinition ⟨.str "GET", .str "paint", .str "/paint(/<color>)",
      .mapping [(.str "color", .list [.str "red", .str "blue"])], .null⟩
      .standard none).1.toOption.bind fun r =>
        (r.parse (.str "/paint/red?color=green") (.str "GET")).map fun params =>
          (r.pattern, Allowed.ofCondition? (r.condition "color"), named? params "color")) =
        some ("/paint(/<color>)", some (.oneOf ["red", "blue"]), some "red") := by decide +kernel
  generalize hr : (ofDefinition _ _ _).1 = result at hmade
  cases result with
  | error e => cases hmade
  | ok r =>
    obtain ⟨params, hparse, hvalues⟩ := Option.map_eq_some_iff.mp hmade
    obtain ⟨hpattern, hcondition, hcolor⟩ := by simpa only [Prod.mk.injEq] using hvalues
    have hp : Pattern.parse none r.pattern = .ok ⟨"/paint(/<color>)",
        [.literal "/paint", .optional ["color"] [.literal "/", .param "color"]], none⟩ := by
      rw [hpattern]
      rfl
    have hl : ∀ name ∈ ["color"], (Allowed.ofCondition? (r.condition name)).isSome = true := by
      intro name hname
      obtain rfl := List.mem_singleton.mp hname
      rw [hcondition]
      rfl
    obtain ⟨given, found, hgiven, hrun, horigin⟩ :=
      parse_origin (Definition.unaffected_none _) hr hp hl hparse
    exact ⟨r, params, given, found, rfl, hparse, hgiven, hrun,
      horigin "color" (List.mem_singleton_self _) "red" hcolor⟩

/-- Where an optional parameter is absent from the path, the query string can give it a value that
its condition does not list. -/
theorem parse_query_unlisted : ∃ r p params,
    (ofDefinition ⟨.str "GET", .str "paint", .str "/paint(/<color>)",
        .mapping [(.str "color", .list [.str "red", .str "blue"])], .null⟩ .standard none).1 =
          .ok r ∧
      Pattern.parse none r.pattern = .ok p ∧ r.Listed p ∧
      r.parse (.str "/paint?color=green") (.str "GET") = some params ∧ "color" ∈ p.names ∧
      named? params "color" = some "green" ∧ named? r.defaults "color" = none ∧
      (r.allowed "color").holds "green".toList = false := by
  have hmade : ((ofDefinition ⟨.str "GET", .str "paint", .str "/paint(/<color>)",
      .mapping [(.str "color", .list [.str "red", .str "blue"])], .null⟩
      .standard none).1.toOption.bind fun r =>
        (r.parse (.str "/paint?color=green") (.str "GET")).map fun params =>
          (r.pattern, Allowed.ofCondition? (r.condition "color"), named? params "color",
            named? r.defaults "color", (r.allowed "color").holds "green".toList)) =
        some ("/paint(/<color>)", some (.oneOf ["red", "blue"]), some "green", none, false) := by
    decide +kernel
  generalize hr : (ofDefinition _ _ _).1 = result at hmade
  cases result with
  | error e => cases hmade
  | ok r =>
    obtain ⟨params, hparse, hvalues⟩ := Option.map_eq_some_iff.mp hmade
    obtain ⟨hpattern, hcondition, hcolor, hdefault, hholds⟩ := by
      simpa only [Prod.mk.injEq] using hvalues
    refine ⟨r, ⟨"/paint(/<color>)",
      [.literal "/paint", .optional ["color"] [.literal "/", .param "color"]], none⟩, params, rfl,
      ?_, ?_, hparse, List.mem_singleton_self _, hcolor, hdefault, hholds⟩
    · rw [hpattern]
      rfl
    · intro name hname
      obtain rfl := List.mem_singleton.mp hname
      rw [hcondition]
      rfl

end Route

end PathRouting
