import PathRouting.Proofs.Pattern.Matching
import PathRouting.Proofs.Pattern.Refusal
import PathRouting.Pattern.Request

/-!
# Conditions that are written alike

A canonical text tells conditions apart by their texts. Of the conditions that are no expressions
the absent one alone is written as another one is, namely as the expression that takes the text of
the absent value.
-/
namespace PathRouting

open Pattern Regex

theorem Regex.Node.Shifted.eq_of_literals {n : Nat} {text : List Char} {body : Node}
    (h : (Node.ofList (text.map fun c => .literal c.toNat)).Shifted n body) :
    body = .ofList (text.map fun c => .literal c.toNat) := by
  induction text generalizing body with
  | nil => cases h <;> rfl
  | cons c text ih =>
    cases text with
    | nil => cases h; rfl
    | cons c' text =>
      cases h with
      | simple hs => cases hs
      | sequence hx hy =>
        cases hx
        rw [ih hy]
        rfl

namespace Pattern

open Request

theorem admits_absentText [CharacterNames] : Admits (.str "None") (.oneOf ["None"]) := by
  intro groups last body h c
  cases h with
  | @expression _ e _ he hshift _ =>
    have hnone : ofChars "None".toList =
        .ok ⟨.ofList ("None".toList.map fun c => .literal c.toNat), 0⟩ := by rfl
    obtain rfl := Except.ok.inj (he.symm.trans hnone)
    rw [hshift.eq_of_literals]
    have ht := takes_alternatives ["None".toList] c
    rw [List.flatMap_singleton] at ht
    exact ht
  | listed hl => cases hl

theorem canonicalValue_listed {value : Value} {texts : List String}
    (h : listedValues? value = some texts) : canonicalValue value = .arr (texts.map .str) ∨
      canonicalValue value = .obj [("set", .arr (texts.map .str))] := by
  unfold listedValues? at h
  split at h
  · obtain rfl := Option.some.inj h
    exact .inl (by rw [canonicalValue, List.map_map]; rfl)
  · obtain rfl := Option.some.inj h
    exact .inl (by rw [canonicalValue, List.map_map]; rfl)
  · obtain rfl := Option.some.inj h
    exact .inr rfl
  · obtain rfl := Option.some.inj h
    exact .inr rfl
  · cases h

theorem canonicalValue_listed_ne {value : Value} {texts : List String}
    (h : listedValues? value = some texts) (text : String) : canonicalValue value ≠ .str text := by
  rcases canonicalValue_listed h with hc | hc
  · rw [hc]
    exact nofun
  · rw [hc]
    exact nofun

theorem listed_unique {value value' : Value} {texts texts' : List String}
    (h : listedValues? value = some texts) (h' : listedValues? value' = some texts')
    (hc : canonicalValue value = canonicalValue value') : texts = texts' := by
  have hinj : Function.Injective (List.map Json.str) :=
    List.map_injective_iff.mpr fun _ _ he => Json.str.inj he
  rcases canonicalValue_listed h with hv | hv <;> rcases canonicalValue_listed h' with hw | hw <;>
    rw [hv, hw] at hc
  · exact hinj (Json.arr.inj hc)
  · cases hc
  · cases hc
  · simp only [Json.obj.injEq, List.cons.injEq, Prod.mk.injEq, Json.arr.injEq, true_and,
      and_true] at hc
    exact hinj hc

theorem ofCondition_listed {value : Value} {texts : List String}
    (h : listedValues? value = some texts) (hne : texts ≠ []) :
    Allowed.ofCondition? value = some (.oneOf texts) := by
  unfold Allowed.ofCondition?
  split
  · cases h
  · cases h
  · rw [h]
    cases texts with
    | nil => exact absurd rfl hne
    | cons text texts => rfl

variable {groups last : Nat} {value own : Value} {body : Node}

variable [CharacterNames]

/-- A condition that is written as a text other than that of the absent value is that text. -/
theorem Fills.eq_str_of_alike {source : String} (h : Fills groups value body last)
    (hc : canonicalValue value = canonicalValue (.str source)) (hne : source ≠ "None") :
    value = .str source := by
  cases h with
  | absent => exact absurd (Json.str.inj hc).symm hne
  | expression => exact congrArg Value.str (Json.str.inj hc)
  | listed hl => exact absurd hc (canonicalValue_listed_ne hl source)

/-- A condition that is written as one that is no expression admits the same texts, but that what
is written as the absent condition may admit the text of the absent value alone. -/
theorem Fills.admits_of_alike (h : Fills groups value body last) (hown : Listing own)
    (hc : canonicalValue value = canonicalValue own) : ∃ a, Admits value a ∧
      (Allowed.ofCondition? own = some a ∨ own = .null ∧ a = .oneOf ["None"]) := by
  obtain rfl | ⟨texts, hl, hne⟩ := listing_iff.mp hown
  · cases h with
    | absent => exact ⟨.nameRun, admits_of_ofCondition rfl, .inl rfl⟩
    | expression =>
      obtain rfl := Json.str.inj hc
      exact ⟨.oneOf ["None"], admits_absentText, .inr ⟨rfl, rfl⟩⟩
    | listed hl => exact absurd hc (canonicalValue_listed_ne hl "None")
  · cases h with
    | absent => exact absurd hc.symm (canonicalValue_listed_ne hl "None")
    | @expression source => exact absurd hc.symm (canonicalValue_listed_ne hl source)
    | listed hl' =>
      obtain rfl := listed_unique hl' hl hc
      exact ⟨.oneOf _, admits_of_ofCondition (ofCondition_listed hl' hne),
        .inl (ofCondition_listed hl hne)⟩

theorem Composed.fills {condition : String → Except Failure Value} {parts : List Segment}
    {slots : List (String × Nat)} {nodes : List Node}
    (h : Composed condition groups parts slots nodes last) {name : String}
    (hname : name ∈ Segment.namesOf parts) : ∃ value before body after,
      condition name = .ok value ∧ Fills before value body after := by
  induction h with
  | nil => cases hname
  | literal _ _ ih => exact ih hname
  | param hv hf _ ih =>
    rcases List.mem_cons.mp hname with rfl | hname
    · exact ⟨_, _, _, _, hv, hf⟩
    · exact ih hname
  | optional _ _ _ ihp ihr =>
    rcases List.mem_append.mp hname with hname | hname
    · exact ihp hname
    · exact ihr hname

end Pattern

end PathRouting
