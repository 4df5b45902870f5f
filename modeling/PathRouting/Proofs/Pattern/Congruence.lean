import PathRouting.Proofs.Pattern.Fingerprint
import PathRouting.Proofs.Value.Merging

/-!
# Requests that compile alike

Compiling looks at a condition's kind and its texts only. So two requests with the same canonical
text compile alike, unless under some name they have conditions of different kinds that look the
same.
-/
namespace PathRouting

open Mapping Regex

namespace Pattern

open Request

/-! ## Conditions -/

/-- What a condition is taken for: lists and tuples are the same, and so are both kinds of set. -/
def conditionKind : Value → String
  | .list _ | .tuple _ => "list"
  | .set _ | .frozenSet _ => "set"
  | v => v.typeName

theorem conditionSource_listing [CharacterNames] {v w : Value} {texts : List String} (name : String)
    (hv : listedValues? v = some texts) (hw : listedValues? w = some texts) :
    conditionSource name v = conditionSource name w := by
  have hcase : ∀ {u : Value}, listedValues? u = some texts → conditionSource name u =
      if texts.isEmpty then .error (.pattern (.emptyCondition name))
      else .ok ⟨anyOf texts, 0⟩ := by
    intro u hu
    unfold conditionSource
    split
    · cases hu
    · cases hu
    · rw [hu]
      cases texts <;> rfl
  rw [hcase hv, hcase hw]

theorem conditionSource_congr [CharacterNames] {v w : Value}
    (hk : conditionKind v = conditionKind w)
    (hc : canonicalValue v = canonicalValue w) (name : String) :
    conditionSource name v = conditionSource name w := by
  have hset : ∀ {ts us : List String}, Json.obj [("set", .arr (ts.map .str))] =
      Json.obj [("set", .arr (us.map .str))] → ts = us := by
    intro ts us h
    have hm := Json.arr.inj (Prod.mk.inj (List.cons.inj (Json.obj.inj h)).1).2
    exact (List.map_inj_right fun _ _ => Json.str.inj).mp hm
  have harr : ∀ {xs ys : List Value}, Json.arr (xs.map fun x => .str x.text) =
      Json.arr (ys.map fun x => .str x.text) → xs.map Value.text = ys.map Value.text := by
    intro xs ys h
    refine (List.map_inj_right fun _ _ => Json.str.inj).mp ?_
    rw [List.map_map, List.map_map]
    exact Json.arr.inj h
  -- the kinds leave only pairs of the same constructor, or of two that list alike
  cases v <;> cases w <;> try (simp [conditionKind, Value.typeName] at hk)
  case str.str s t =>
    obtain rfl : s = t := Json.str.inj hc
    rfl
  case list.list xs ys => exact conditionSource_listing name (congrArg some (harr hc)) rfl
  case list.tuple xs ys => exact conditionSource_listing name (congrArg some (harr hc)) rfl
  case tuple.list xs ys => exact conditionSource_listing name (congrArg some (harr hc)) rfl
  case tuple.tuple xs ys => exact conditionSource_listing name (congrArg some (harr hc)) rfl
  case set.set xs ys => exact conditionSource_listing name (congrArg some (hset hc)) rfl
  case set.frozenSet xs ys => exact conditionSource_listing name (congrArg some (hset hc)) rfl
  case frozenSet.set xs ys => exact conditionSource_listing name (congrArg some (hset hc)) rfl
  case frozenSet.frozenSet xs ys =>
    exact conditionSource_listing name (congrArg some (hset hc)) rfl
  all_goals rfl

/-! ## Trees -/

section Pieces

variable {condition condition' : String → Except Failure Value}

variable [CharacterNames]

theorem piece_param (condition : String → Except Failure Value) (groups : Nat) (name : String) :
    piece condition groups (.param name) = (condition name >>= conditionSource name).map
      fun inner => ⟨'(' :: (inner.source ++ [')']), [(name, groups + 1)],
        groups + 1 + inner.groups⟩ := by
  rw [piece]
  cases condition name with
  | error e => rfl
  | ok value =>
    simp only [bind, Except.bind]
    cases conditionSource name value <;> rfl

theorem pieces_congr {parts : List Segment} (h : ∀ name ∈ Segment.namesOf parts,
      (condition name >>= conditionSource name) = (condition' name >>= conditionSource name))
    (groups : Nat) : pieces condition groups parts = pieces condition' groups parts := by
  induction parts using Segment.sequence_induction generalizing groups with
  | nil => rfl
  | literal text rest ih =>
    have hrest := ih fun name hn => h name (by simp [Segment.namesOf, hn])
    simp only [pieces, piece, hrest]
  | param name rest ih =>
    have hrest := ih fun name hn => h name (by simp [Segment.namesOf, hn])
    have hname := h name (by simp [Segment.namesOf, Segment.names])
    simp only [pieces, piece_param, hname, hrest]
  | optional dependsOn parts rest ihp ihr =>
    have hparts := ihp fun name hn => h name (by simp [Segment.namesOf, Segment.names, hn])
    have hrest := ihr fun name hn => h name (by simp [Segment.namesOf, hn])
    simp only [pieces, piece, hparts, hrest]

theorem Matcher.ofPattern_congr {p : Pattern} {conditions conditions' : Value}
    (h : ∀ name ∈ p.names, (conditionOf conditions name >>= conditionSource name) =
      (conditionOf conditions' name >>= conditionSource name)) :
    Matcher.ofPattern p conditions = Matcher.ofPattern p conditions' := by
  unfold Matcher.ofPattern
  rw [pieces_congr h 0]

end Pieces

theorem conditionOf_mapping (entries : Mapping Value) (name : String) :
    conditionOf (.mapping entries) name = .ok ((named? entries name).getD .null) := by
  cases entries <;> rfl

theorem conditionOf_ofTexts (entries : List (String × Value)) (name : String) :
    conditionOf (.mapping (ofTexts id entries)) name = .ok ((entries.lookup name).getD .null) := by
  rw [conditionOf_mapping, named?_ofTexts, Option.map_id]
  rfl

/-! ## Builders -/

theorem isSupplied_congr {defaults defaults' : Mapping String}
    (h : ∀ name, named? defaults name = named? defaults' name) (params : Mapping Value) :
    isSupplied defaults params = isSupplied defaults' params := by
  funext name
  unfold isSupplied
  rw [h name]

theorem buildParts_congr {defaults defaults' : Mapping String}
    (h : ∀ name, named? defaults name = named? defaults' name) (params : Mapping Value)
    (parts : List Segment) :
    buildParts defaults params parts = buildParts defaults' params parts := by
  induction parts using Segment.sequence_induction with
  | nil => rfl
  | literal text rest ih => simp only [buildParts, buildPart, ih]
  | param name rest ih => simp only [buildParts, buildPart, ih, h name]
  | optional dependsOn parts rest ihp ihr =>
    simp only [buildParts, buildPart, ihp, ihr, isSupplied_congr h]

/-! ## Requests -/

/-- Compiled patterns that match and build alike. -/
structure Compiled.Alike (x y : Compiled) : Prop where
  pattern : x.pattern = y.pattern
  matcher : x.matcher = y.matcher
  built : x.builder.pattern = y.builder.pattern
  texts : ∀ name, named? x.builder.defaults name = named? y.builder.defaults name
  defaults : ∀ key, get? x.defaults key = get? y.defaults key

theorem Compiled.Alike.refl (x : Compiled) : x.Alike x :=
  ⟨rfl, rfl, rfl, fun _ => rfl, fun _ => rfl⟩

/-- Two ways of compiling fail alike or give compiled patterns that are alike. -/
inductive Agree : Except Failure Compiled → Except Failure Compiled → Prop where
  | refused (e : Failure) : Agree (.error e) (.error e)
  | compiled {x y : Compiled} : x.Alike y → Agree (.ok x) (.ok y)

theorem Agree.refl (x : Except Failure Compiled) : Agree x x := by
  cases x with
  | error e => exact .refused e
  | ok x => exact .compiled (.refl x)

variable {r r' : Request} {conditions conditions' : List (String × Value)}
  {defaults defaults' : List (String × String)}

theorem Request.Named.compile [CharacterNames] (h : r.Named conditions defaults) : r.compile = do
    let p ← Failure.ofPattern (parse none r.source)
    let m ← Matcher.ofPattern p (.mapping (ofTexts id conditions))
    return ⟨p, m, ⟨p, ofTexts id defaults⟩, ofTexts id conditions, ofTexts id defaults⟩ := by
  have hdefaults : Builder.defaultTexts r.defaults = .ok (ofTexts id defaults) := by
    rw [Builder.defaultTexts, h.defaults.entriesOrNone, ← mapValues_textual]
    rfl
  rw [Request.compile, Compiled.ofSource]
  cases Failure.ofPattern (parse none r.source) with
  | error e => rfl
  | ok p =>
    simp only [bind, Except.bind]
    rw [Compiled.ofPattern, h.conditions.toMapping, hdefaults]
    rfl

/-- Requests with the same canonical text compile alike, if their conditions on the parameters of
the pattern are of the same kinds. -/
theorem Request.Named.agree [CharacterNames] (h : r.Named conditions defaults)
    (h' : r'.Named conditions' defaults') (ht : r.canonicalText = r'.canonicalText)
    (hk : ∀ p, parse none r.source = .ok p → ∀ name ∈ p.names, ∀ v w,
      conditions.lookup name = some v → conditions'.lookup name = some w →
        canonicalValue v = canonicalValue w → conditionKind v = conditionKind w) :
    Agree r.compile r'.compile := by
  obtain ⟨hsource, hconditions, hdefaults⟩ := (h.canonicalText_eq_iff h').mp ht
  have hmeaning : ∀ p, parse none r.source = .ok p → ∀ name ∈ p.names,
      (conditionOf (.mapping (ofTexts id conditions)) name >>= conditionSource name) =
        (conditionOf (.mapping (ofTexts id conditions')) name >>= conditionSource name) := by
    intro p hp name hm
    rw [conditionOf_ofTexts, conditionOf_ofTexts]
    have hname := hconditions name
    cases hv : conditions.lookup name with
    | none =>
      cases hw : conditions'.lookup name with
      | none => rfl
      | some w => rw [hv, hw] at hname; cases hname
    | some v =>
      cases hw : conditions'.lookup name with
      | none => rw [hv, hw] at hname; cases hname
      | some w =>
        rw [hv, hw] at hname
        have hc := Option.some.inj hname
        exact conditionSource_congr (hk p hp name hm v w hv hw hc) hc name
  rw [h.compile, h'.compile, ← hsource]
  cases hp : parse none r.source with
  | error e => exact .refused _
  | ok p =>
    simp only [Failure.ofPattern, bind, Except.bind]
    rw [Matcher.ofPattern_congr (hmeaning p hp)]
    cases Matcher.ofPattern p (.mapping (ofTexts id conditions')) with
    | error e => exact .refused e
    | ok m =>
      have hget := get?_ofTexts_congr hdefaults
      exact .compiled ⟨rfl, rfl, rfl, fun name => hget (.str name), hget⟩

/-- On the parameters of the pattern, two requests have conditions of the same kinds. -/
def Request.SameKinds (r r' : Request) : Prop :=
  ∀ p, parse none r.source = .ok p → ∀ name ∈ p.names, ∀ v w,
    conditionOf r.conditions name = .ok v → conditionOf r'.conditions name = .ok w →
      conditionKind v = conditionKind w

theorem conditionOf_holds {v : Value} {entries : List (String × Value)} (h : v.Holds entries)
    (name : String) : conditionOf v name = .ok ((entries.lookup name).getD .null) := by
  rcases h.eq with ⟨rfl, rfl⟩ | rfl
  · rfl
  · exact conditionOf_ofTexts entries name

theorem Request.Named.agree_of_sameKinds [CharacterNames] (h : r.Named conditions defaults)
    (h' : r'.Named conditions' defaults') (ht : r.canonicalText = r'.canonicalText)
    (hk : r.SameKinds r') : Agree r.compile r'.compile := by
  refine h.agree h' ht fun p hp name hn v w hv hw _ => ?_
  refine hk p hp name hn v w ?_ ?_
  · rw [conditionOf_holds h.conditions, hv, Option.getD_some]
  · rw [conditionOf_holds h'.conditions, hw, Option.getD_some]

end Pattern

end PathRouting
