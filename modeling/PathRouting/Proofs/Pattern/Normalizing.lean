import PathRouting.Proofs.Pattern.Filling
import PathRouting.Proofs.Value.Merging

/-!
# What a builder tells apart

Whether a group is rendered and what a parameter is rendered as are decided in different places,
but both by the text that a parameter is supplied with. So mappings with one normal form build
one path.
-/
namespace PathRouting.Pattern

open Mapping

variable {defaults : Mapping String} {params params' : Mapping Value} {name : String} {v : Value}

/-! ## Supplied texts -/

theorem suppliedText?_of_missing (h : named? params name = none) :
    suppliedText? defaults params name = none := by
  rw [suppliedText?, givenText?, h]
  rfl

theorem suppliedText?_null (h : named? params name = some .null) :
    suppliedText? defaults params name = none := by
  rw [suppliedText?, givenText?, h]
  rfl

theorem suppliedText?_value (h : named? params name = some v) (hv : v ≠ .null) :
    suppliedText? defaults params name =
      if named? defaults name = some v.text then none else some v.text := by
  have hgiven : givenText? params name = some v.text := by
    rw [givenText?, h]
    cases v <;> first | rfl | exact absurd rfl hv
  rw [suppliedText?, hgiven, Option.filter]
  simp

namespace Builder

variable {b : Builder}

/-- What is left of a parameter's entry is the text that the parameter is supplied with. -/
theorem normalEntry?_name (hn : name ∈ b.pattern.names) (h : named? params name = some v) :
    b.normalEntry? (.str name, v) =
      (suppliedText? b.defaults params name).map fun text => (.str name, .str text) := by
  by_cases hv : v = .null
  · subst hv
    rw [suppliedText?_null h]
    rfl
  · have hentry : b.normalEntry? (.str name, v) =
        if (b.pattern.names.contains name && named? b.defaults name != some v.text) = true then
          some (.str name, .str v.text)
        else none := by
      cases v <;> first | rfl | exact absurd rfl hv
    rw [hentry, suppliedText?_value h hv]
    by_cases hdefault : named? b.defaults name = some v.text
    · simp [hdefault]
    · simp [hdefault, hn]

theorem normalEntry?_key {e left : Value × Value} (h : b.normalEntry? e = some left) :
    left.1 = e.1 := by
  unfold normalEntry? at h
  split at h
  · cases h
  · split at h
    · obtain rfl := Option.some.inj h
      rfl
    · cases h
  · cases h

theorem normalize_cons (e : Value × Value) (params : Mapping Value) :
    b.normalize (e :: params) = (b.normalEntry? e).toList ++ b.normalize params := by
  rw [normalize, List.filterMap_cons]
  cases b.normalEntry? e <;> rfl

/-- The normal form of a mapping has the texts that the parameters are supplied with. -/
theorem named?_normalize (hd : Distinct params) (hn : name ∈ b.pattern.names) :
    named? (b.normalize params) name = (suppliedText? b.defaults params name).map .str := by
  induction params with
  | nil => rfl
  | cons e params ih =>
    obtain ⟨key, v⟩ := e
    obtain ⟨hfirst, hrest⟩ := List.pairwise_cons.mp hd
    have hnormal : get? (b.normalize params) (.str name) =
        (suppliedText? b.defaults params name).map .str := ih hrest
    rw [normalize_cons, named?, get?_append, hnormal]
    by_cases hk : key = .str name
    · subst hk
      have hself : (Value.str name).sameKey (.str name) = true := Value.sameKey_text_iff.mpr rfl
      have hnamed : named? ((Value.str name, v) :: params) name = some v := by
        rw [named?, get?_cons, if_pos hself]
      -- no other entry has the name
      have hothers : named? params name = none := by
        rw [named?, ← Option.not_isSome_iff_eq_none, get?_isSome_iff]
        rintro ⟨e, he, hs⟩
        exact hfirst e he (Value.sameKey_iff_text.mp hs ▸ hself)
      rw [normalEntry?_name hn hnamed, suppliedText?_of_missing hothers, Option.map_none,
        Option.or_none]
      cases suppliedText? b.defaults ((.str name, v) :: params) name with
      | none => rfl
      | some text => rw [Option.map_some, Option.toList_some, get?_cons, if_pos hself]; rfl
    · have hother : ¬key.sameKey (.str name) = true := fun hs => hk (Value.sameKey_iff_text.mp hs)
      have hnamed : named? ((key, v) :: params) name = named? params name := by
        rw [named?, get?_cons, if_neg hother, named?]
      have hleft : get? (b.normalEntry? (key, v)).toList (.str name) = none := by
        cases hl : b.normalEntry? (key, v) with
        | none => rfl
        | some left =>
          rw [Option.toList_some, get?_cons, normalEntry?_key hl, if_neg hother]
          rfl
      rw [hleft, Option.none_or, suppliedText?_congr hnamed]

theorem suppliedText?_normalize (hd : Distinct params) (hn : name ∈ b.pattern.names) :
    suppliedText? b.defaults (b.normalize params) name =
      suppliedText? b.defaults params name := by
  have hnamed := named?_normalize hd hn
  cases hs : suppliedText? b.defaults params name with
  | none =>
    rw [hs] at hnamed
    exact suppliedText?_of_missing hnamed
  | some text =>
    rw [hs] at hnamed
    -- a text that is supplied is not the default
    have hne : named? b.defaults name ≠ some text := by
      obtain ⟨-, hkept⟩ := Option.filter_eq_some_iff.mp hs
      simpa using hkept
    rw [suppliedText?_value hnamed (by simp), Value.text_str, if_neg hne]

/-! ## Paths -/

/-- What a builder does not tell apart, next to a mapping. -/
structure Normalizes (b : Builder) (params : Mapping Value) : Prop where
  /-- The normal form of the mapping builds the same path. -/
  normal : ∃ path, b.buildFrom (.mapping params) = .ok path ∧
    b.buildFrom (.mapping (b.normalize params)) = .ok path
  /-- To be absent is not to be given. -/
  absent : ∀ name, b.build (params.insert (.str name) .null) = b.build (params.erase (.str name))
  /-- To be given the default is not to be given. -/
  default : ∀ name v, named? b.defaults name = some v.text →
    b.build (params.insert (.str name) v) = b.build (params.erase (.str name))
  /-- A value counts as its text. -/
  text : ∀ name v, v ≠ .null →
    b.build (params.insert (.str name) v) = b.build (params.insert (.str name) (.str v.text))
  /-- Keys that name no parameter count for nothing. -/
  unrelated : ∀ key v, (∀ name ∈ b.pattern.names, key ≠ .str name) →
    b.build (params.insert key v) = b.build params

theorem build_congr (hc : Segment.Canonical b.pattern.parts)
    (h : ∀ name ∈ b.pattern.names,
      suppliedText? b.defaults params name = suppliedText? b.defaults params' name) :
    b.build params = b.build params' := buildParts_of_supplied hc h

theorem build_insert_unsupplied (hc : Segment.Canonical b.pattern.parts) (hd : Distinct params)
    (h : v = .null ∨ named? b.defaults name = some v.text) :
    b.build (params.insert (.str name) v) = b.build (params.erase (.str name)) := by
  refine build_congr hc fun other _ => ?_
  by_cases he : other = name
  · subst he
    have hset := named?_insert_self params other v
    rw [suppliedText?_of_missing (hd.get?_erase_self other)]
    rcases h with rfl | hdefault
    · exact suppliedText?_null hset
    · by_cases hv : v = .null
      · exact suppliedText?_null (hv ▸ hset)
      · rw [suppliedText?_value hset hv, if_pos hdefault]
  · have hne : Value.str other ≠ .str name := fun hk => he (Value.str.inj hk)
    refine suppliedText?_congr ?_
    rw [named?_insert_of_ne params he, named?, named?, get?_erase_of_ne params hne]

theorem normalizes (hc : Segment.Canonical b.pattern.parts) (hd : Distinct params) :
    b.Normalizes params := by
  constructor
  case normal =>
    refine ⟨b.build params, buildFrom_mapping b params, ?_⟩
    rw [buildFrom_mapping]
    exact congrArg Except.ok (build_congr hc fun name hn => suppliedText?_normalize hd hn)
  case absent =>
    intro name
    exact build_insert_unsupplied hc hd (.inl rfl)
  case default =>
    intro name v h
    exact build_insert_unsupplied hc hd (.inr h)
  case text =>
    intro name v hv
    refine build_congr hc fun other _ => ?_
    by_cases he : other = name
    · subst he
      rw [suppliedText?_value (named?_insert_self params other v) hv,
        suppliedText?_value (named?_insert_self params other (.str v.text)) (by simp)]
      rfl
    · exact suppliedText?_congr (by
        rw [named?_insert_of_ne params he, named?_insert_of_ne params he])
  case unrelated =>
    intro key v h
    exact build_congr hc fun name hn =>
      suppliedText?_congr (named?_insert_of_key_ne params (h name hn) v)

/-- The builder of any pattern and defaults makes of every mapping what it makes of its normal
form. -/
theorem ofPattern_normalizes {file : Option String} {source : String} {p : Pattern}
    (hp : parse file source = .ok p) (defaults : Mapping Value) (hd : Distinct params) :
    ∃ b, ofPattern p (.mapping defaults) = .ok b ∧ b.Normalizes params := by
  refine ⟨⟨p, defaults.mapValues Value.text⟩, ?_, normalizes (parse_sound hp).2.2.2 hd⟩
  rw [ofPattern, defaultTexts, Value.entriesOrNone_mapping]
  rfl

/-- A number, a default that is given as text inside two groups, and keys that name nothing. -/
theorem ofPattern_normalizes_nested : ∃ p b,
    parse none "/a<x>(/<y>(-<z>))" = .ok p ∧
    ofPattern p (.mapping [(.str "z", .int 7), (.str "x", .null)]) = .ok b ∧
    b.Normalizes [(.str "x", .int 42), (.str "z", .str "7"), (.int 1, .str "q"),
      (.str "y", .list [.null]), (.str "w", .null)] ∧
    b.normalize [(.str "x", .int 42), (.str "z", .str "7"), (.int 1, .str "q"),
      (.str "y", .list [.null]), (.str "w", .null)] =
        [(.str "x", .str "42"), (.str "y", .str "[None]")] ∧
    b.build [(.str "x", .str "42"), (.str "y", .str "[None]")] = "/a42/[None]" := by
  have hp : parse none "/a<x>(/<y>(-<z>))" = .ok ⟨"/a<x>(/<y>(-<z>))",
      [.literal "/a", .param "x", .optional ["y"] [.literal "/", .param "y",
        .optional ["z"] [.literal "-", .param "z"]]], none⟩ := by rfl
  have hd : Distinct [(.str "x", .int 42), (.str "z", .str "7"), (.int 1, .str "q"),
      (.str "y", .list [.null]), ((.str "w", .null) : Value × Value)] := by
    unfold Distinct
    decide
  obtain ⟨b, hb, hnormalizes⟩ := ofPattern_normalizes hp [(.str "z", .int 7), (.str "x", .null)] hd
  refine ⟨_, b, hp, hb, hnormalizes, ?_, ?_⟩ <;> obtain rfl := Except.ok.inj hb
  · rfl
  · rfl

end Builder

end PathRouting.Pattern
