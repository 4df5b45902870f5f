import PathRouting.Config.TypeHint

/-!
# Unions of types

A union is checked like an optional type: it admits the absent value and whatever its first member
admits. That a value agrees with a union if and only if it agrees with a member holds for those
unions alone whose first member speaks for all others and among which the absent value has a place.
-/
namespace PathRouting.Config

namespace PlainType

variable {c d : PlainType}

/-- A value of a class that is of no other class but the one of all values. -/
def sample : PlainType → Value
  | .int => .int 0
  | .float => .float .nan
  | .bool => .bool true
  | .str => .str ""
  | .list => .list []
  | .tuple => .tuple []
  | .set => .set []
  | .frozenSet => .frozenSet []
  | .mapping => .mapping []
  | .anything => .record []

theorem sample_ne_null (c : PlainType) : c.sample ≠ .null := by
  cases c <;> simp [sample]

theorem admits_sample_iff : d.admits c.sample = true ↔ d = c ∨ d = .anything := by
  cases c <;> cases d <;> decide

theorem admits_null_iff : c.admits .null = true ↔ c = .anything := by
  cases c <;> decide

theorem anything_admits (v : Value) : anything.admits v = true := by
  cases v <;> rfl

end PlainType

namespace TypeHint

mutual

/-- Whether a type hint is made of classes, classes with arguments and the absent type, by unions
that have members. -/
def ofClasses : TypeHint → Bool
  | .plain _ | .generic .. | .absent => true
  | .union members => !members.isEmpty && allOfClasses members
  | .any | .callable | .literal => false

def allOfClasses : List TypeHint → Bool
  | [] => true
  | t :: ts => ofClasses t && allOfClasses ts

end

mutual

/-- The types that a type hint gives the choice of. A union inside a union gives its own. -/
def choices : TypeHint → List TypeHint
  | .union members => choicesAmong members
  | t => [t]

/-- The types that several type hints give the choice of. -/
def choicesAmong : List TypeHint → List TypeHint
  | [] => []
  | t :: ts => choices t ++ choicesAmong ts

end

def class? : TypeHint → Option PlainType
  | .plain c | .generic c _ => some c
  | _ => none

/-- A type that gives no choice: one class, or the absent type. -/
def Single (t : TypeHint) : Prop := t = .absent ∨ ∃ c, t.class? = some c

/-- Types of which one may be absent, while the first one has the values of all others that are
there. -/
def Optional (types : List TypeHint) : Prop :=
  (∃ t ∈ types, t.class? = none ∨ t.class? = some .anything) ∧
    ∀ first ∈ types.head?, first.class? = some .anything ∨
      ∀ t ∈ types, t.class? = none ∨ t.class? = first.class?

variable {t first : TypeHint} {members : List TypeHint} {c : PlainType} {v : Value}

theorem admits_of_class (h : t.class? = some c) (v : Value) : t.admits v = .ok (c.admits v) := by
  cases t with
  | plain c' =>
    obtain rfl := Option.some.inj h
    rfl
  | generic c' arguments =>
    obtain rfl := Option.some.inj h
    rfl
  | _ => cases h

theorem absent_admits_iff : absent.admits v = .ok true ↔ v = .null := by
  cases v <;> simp [admits]

theorem union_admits_null (members : List TypeHint) : (union members).admits .null = .ok true := rfl

theorem union_admits_of_ne_null (hv : v ≠ .null) (t : TypeHint) (members : List TypeHint) :
    (union (t :: members)).admits v = t.admits v := by
  cases v with
  | null => exact absurd rfl hv
  | _ => rfl

mutual

theorem single_of_choices : ∀ (t : TypeHint), t.ofClasses = true → ∀ m ∈ t.choices, m.Single
  | .plain c, _, _, hm => .inr ⟨c, by rw [List.mem_singleton.mp hm]; rfl⟩
  | .generic c _, _, _, hm => .inr ⟨c, by rw [List.mem_singleton.mp hm]; rfl⟩
  | .absent, _, _, hm => .inl (List.mem_singleton.mp hm)
  | .union members, h, m, hm => by
    rw [ofClasses, Bool.and_eq_true] at h
    exact single_of_choicesAmong members h.2 m hm
  | .any, h, _, _ => by cases h
  | .callable, h, _, _ => by cases h
  | .literal, h, _, _ => by cases h

theorem single_of_choicesAmong : ∀ (ts : List TypeHint), allOfClasses ts = true →
    ∀ m ∈ choicesAmong ts, m.Single
  | [], _, _, hm => by cases hm
  | t :: ts, h, m, hm => by
    rw [allOfClasses, Bool.and_eq_true] at h
    rcases List.mem_append.mp hm with hm | hm
    · exact single_of_choices t h.1 m hm
    · exact single_of_choicesAmong ts h.2 m hm

end

/-- Of the types that a type hint gives the choice of, the first one is asked about a value that is
there. -/
theorem exists_first : ∀ (t : TypeHint), t.ofClasses = true → ∃ first rest,
    t.choices = first :: rest ∧ ∀ v, v ≠ .null → t.admits v = first.admits v
  | .plain c, _ => ⟨.plain c, [], rfl, fun _ _ => rfl⟩
  | .generic c arguments, _ => ⟨.generic c arguments, [], rfl, fun _ _ => rfl⟩
  | .absent, _ => ⟨.absent, [], rfl, fun _ _ => rfl⟩
  | .union [], h => by cases h
  | .union (t :: ts), h => by
    rw [ofClasses, Bool.and_eq_true, allOfClasses, Bool.and_eq_true] at h
    obtain ⟨first, rest, hchoices, hadmits⟩ := exists_first t h.2.1
    refine ⟨first, rest ++ choicesAmong ts, ?_, ?_⟩
    · rw [choices, choicesAmong, hchoices, List.cons_append]
    · intro v hv
      rw [union_admits_of_ne_null hv, hadmits v hv]
  | .any, h => by cases h
  | .callable, h => by cases h
  | .literal, h => by cases h

theorem Single.answers (h : t.Single) (v : Value) : ∃ b, t.admits v = .ok b := by
  rcases h with rfl | ⟨c, hc⟩
  · exact ⟨_, rfl⟩
  · exact ⟨_, admits_of_class hc v⟩

theorem optional_of_law {types : List TypeHint} (hsingle : ∀ m ∈ types, m.Single)
    (hnull : ∃ m ∈ types, m.admits .null = .ok true)
    (hfirst : ∀ first ∈ types.head?, ∀ v, v ≠ .null → ∀ m ∈ types, m.admits v = .ok true →
      first.admits v = .ok true) : Optional types := by
  constructor
  · obtain ⟨m, hm, hadmits⟩ := hnull
    refine ⟨m, hm, ?_⟩
    rcases hsingle m hm with rfl | ⟨c, hc⟩
    · exact .inl rfl
    · rw [admits_of_class hc, Except.ok.injEq, PlainType.admits_null_iff] at hadmits
      exact .inr (hadmits ▸ hc)
  · intro first hmem
    by_cases hany : first.class? = some .anything
    · exact .inl hany
    · right
      intro m hm
      rcases hsingle m hm with rfl | ⟨c, hc⟩
      · exact .inl rfl
      · right
        -- the first type must have the class of a value that is of no other one
        have hsample : first.admits c.sample = .ok true := by
          apply hfirst first hmem c.sample c.sample_ne_null m hm
          rw [admits_of_class hc, PlainType.admits_sample_iff.mpr (.inl rfl)]
        rcases hsingle first (List.mem_of_mem_head? hmem) with rfl | ⟨d, hd⟩
        · exact absurd (absent_admits_iff.mp hsample) c.sample_ne_null
        · rw [admits_of_class hd, Except.ok.injEq, PlainType.admits_sample_iff] at hsample
          rcases hsample with rfl | rfl
          · rw [hc, hd]
          · exact absurd hd hany

theorem Optional.first_admits {types : List TypeHint} (h : Optional types)
    (hsingle : ∀ m ∈ types, m.Single) (hmem : first ∈ types.head?) (hv : v ≠ .null)
    (ht : t ∈ types) (hadmits : t.admits v = .ok true) : first.admits v = .ok true := by
  rcases h.2 first hmem with hany | hsame
  · rw [admits_of_class hany, PlainType.anything_admits]
  · rcases hsingle t ht with rfl | ⟨c, hc⟩
    · exact absurd (absent_admits_iff.mp hadmits) hv
    · have hfirst : first.class? = some c := by
        rcases hsame t ht with hnone | heq
        · rw [hc] at hnone
          cases hnone
        · rw [← heq, hc]
      rw [admits_of_class hfirst, ← admits_of_class hc, hadmits]

theorem Optional.admits_null {types : List TypeHint} (h : Optional types)
    (hsingle : ∀ m ∈ types, m.Single) : ∃ t ∈ types, t.admits .null = .ok true := by
  obtain ⟨t, ht, hnone | hany⟩ := h.1
  · rcases hsingle t ht with rfl | ⟨c, hc⟩
    · exact ⟨_, ht, rfl⟩
    · rw [hc] at hnone
      cases hnone
  · exact ⟨t, ht, admits_of_class hany .null⟩

/-- A union of classes has an answer for every value: it admits the absent value and what the first
of its types admits. To agree with it is to agree with one of its types, for every value, if and
only if these are optional. -/
theorem union_admits_iff_member_iff (h : (union members).ofClasses = true) :
    (∀ v, ∃ b, (union members).admits v = .ok b ∧ (b = true ↔
      v = .null ∨ ∃ first ∈ (union members).choices.head?, first.admits v = .ok true)) ∧
      ((∀ v, (union members).admits v = .ok true ↔
        ∃ t ∈ (union members).choices, t.admits v = .ok true) ↔
          Optional (union members).choices) := by
  have hsingle := single_of_choices _ h
  obtain ⟨first, rest, hchoices, hadmits⟩ := exists_first _ h
  have hmem : first ∈ (union members).choices := hchoices ▸ List.mem_cons_self
  have hhead : first ∈ (union members).choices.head? := by rw [hchoices]; rfl
  constructor
  · intro v
    by_cases hv : v = .null
    · exact ⟨true, hv ▸ union_admits_null members, by simp [hv]⟩
    · obtain ⟨b, hb⟩ := (hsingle first hmem).answers v
      refine ⟨b, (hadmits v hv).trans hb, ?_⟩
      simp [hv, hchoices, hb]
  constructor
  · intro hlaw
    apply optional_of_law hsingle
    · exact (hlaw .null).mp (union_admits_null members)
    · intro first' hhead' v hv t ht htrue
      obtain rfl := Option.some.inj (hhead.symm.trans hhead')
      rw [← hadmits v hv]
      exact (hlaw v).mpr ⟨t, ht, htrue⟩
  · intro hoptional v
    by_cases hv : v = .null
    · subst hv
      exact ⟨fun _ => hoptional.admits_null hsingle, fun _ => union_admits_null members⟩
    · rw [hadmits v hv]
      constructor
      · intro htrue
        exact ⟨first, hmem, htrue⟩
      · rintro ⟨t, ht, htrue⟩
        exact hoptional.first_admits hsingle hhead hv ht htrue

/-- One member is a union of its own, and the lists are told apart by their arguments alone. -/
theorem union_admits_iff_member_iff_nested : ∃ members,
    members = [union [generic .list [.plain .int], .absent], generic .list [.any]] ∧
      (union members).ofClasses = true ∧
      (∀ v, ∃ b, (union members).admits v = .ok b ∧ (b = true ↔
        v = .null ∨ ∃ first ∈ (union members).choices.head?, first.admits v = .ok true)) ∧
      ((∀ v, (union members).admits v = .ok true ↔
        ∃ t ∈ (union members).choices, t.admits v = .ok true) ↔
          Optional (union members).choices) :=
  ⟨_, rfl, rfl, union_admits_iff_member_iff rfl⟩

/-- A number agrees with the second of two types and not with their union, unless the types change
places. The absent value agrees with the union and with neither of them. -/
theorem union_ignores_second_member :
    (plain .int).admits (.int 1) = .ok true ∧
      (union [plain .str, plain .int]).admits (.int 1) = .ok false ∧
      (union [plain .int, plain .str]).admits (.int 1) = .ok true ∧
      (union [plain .str, plain .int]).admits .null = .ok true ∧
      (plain .str).admits .null = .ok false ∧ (plain .int).admits .null = .ok false :=
  ⟨rfl, rfl, rfl, rfl, rfl, rfl⟩

end TypeHint

end PathRouting.Config
