import Mathlib.Data.List.Infix
import Mathlib.Order.Comparable
import PathRouting.Config.Setting
import PathRouting.Proofs.Value.Merging

/-!
# Assigning along a key path

In settings in which no mapping is shared, what is assigned at a key path is seen along that path
and nowhere beside it, whatever keys are followed to look for it.
-/
namespace PathRouting

open Mapping

namespace Value

/-- The value inside nested mappings that some keys lead to, one behind another. -/
def behind? : Value → List Value → Option Value
  | v, [] => some v
  | .mapping entries, key :: rest => (Mapping.get? entries key).bind fun inner => behind? inner rest
  | _, _ :: _ => none

theorem behind?_cons (entries : Mapping Value) (key : Value) (rest : List Value) :
    (Value.mapping entries).behind? (key :: rest) =
      (Mapping.get? entries key).bind fun inner => inner.behind? rest := rfl

end Value

namespace Config

/-! ## Paths that do not meet -/

/-- Two paths are unrelated if neither of them is the other or a beginning of it. -/
abbrev Unrelated {α : Type} (p q : List α) : Prop := IncompRel (· <+: ·) p q

theorem Unrelated.tail {α : Type} {x : α} {p q : List α} (h : Unrelated (x :: p) (x :: q)) :
    Unrelated p q := by
  constructor
  · intro hp
    exact h.1 (List.cons_prefix_cons.mpr ⟨rfl, hp⟩)
  · intro hp
    exact h.2 (List.cons_prefix_cons.mpr ⟨rfl, hp⟩)

theorem Unrelated.left_ne_nil {α : Type} {p q : List α} (h : Unrelated p q) : p ≠ [] := by
  rintro rfl
  exact h.1 List.nil_prefix

theorem Unrelated.append {α : Type} {p q : List α} (h : Unrelated p q) (rest : List α) :
    Unrelated p (q ++ rest) := by
  constructor
  · intro hp
    rcases List.prefix_or_prefix_of_prefix hp (List.prefix_append q rest) with hpq | hqp
    · exact h.1 hpq
    · exact h.2 hqp
  · intro hp
    exact h.2 ((List.prefix_append q rest).trans hp)

def keysOf (path : KeyPath) : List Value := path.map .str

theorem keysOf_unrelated {p q : KeyPath} (h : Unrelated p q) :
    Unrelated (keysOf p) (keysOf q) := by
  have hinj : Function.Injective Value.str := fun _ _ => Value.str.inj
  exact ⟨mt (List.prefix_map_iff_of_injective hinj).mp h.1,
    mt (List.prefix_map_iff_of_injective hinj).mp h.2⟩

variable {settings : Mapping Value} {path : KeyPath} {value : Value} {keys rest : List Value}

theorem lookup_eq_behind? (v : Value) (path : KeyPath) :
    lookup v path = v.behind? (keysOf path) := by
  induction path generalizing v with
  | nil => cases v <;> rfl
  | cons key path ih =>
    cases v with
    | mapping entries => exact congrArg (Option.bind _) (funext fun inner => ih inner)
    | _ => rfl

/-! ## One assignment -/

/-- The settings with a value at a key path. What stands on the way and is no mapping gives
way to an empty one. -/
def assign (settings : Mapping Value) (path : KeyPath) (value : Value) : Mapping Value :=
  match path with
  | [] => settings
  | [key] => Mapping.insert settings (.str key) value
  | key :: next :: rest =>
    let inner := match Mapping.named? settings key with
      | some (.mapping es) => es
      | _ => []
    Mapping.insert settings (.str key) (.mapping (assign inner (next :: rest) value))

/-- The mapping that an assignment goes on with under a key. -/
def opened : Option Value → Mapping Value
  | some (.mapping entries) => entries
  | _ => []

theorem assign_cons (settings : Mapping Value) (key next : String) (path : KeyPath)
    (value : Value) : assign settings (key :: next :: path) value =
      insert settings (.str key)
        (.mapping (assign (opened (named? settings key)) (next :: path) value)) := rfl

/-- A mapping that takes the place of another value has nothing inside, like that value. -/
theorem behind?_opened (old : Option Value) (h : keys ≠ []) :
    (Value.mapping (opened old)).behind? keys = old.bind fun inner => inner.behind? keys := by
  cases keys with
  | nil => exact absurd rfl h
  | cons key rest =>
    cases old with
    | none => rfl
    | some v => cases v <;> rfl

/-- Under the first key of an assignment stands the value, or a mapping in which it goes on. -/
theorem get?_assign_self (settings : Mapping Value) (key : String) (path : KeyPath)
    (value : Value) : Mapping.get? (assign settings (key :: path) value) (.str key) =
      some (if path = [] then value
        else .mapping (assign (opened (named? settings key)) path value)) := by
  cases path with
  | nil => exact named?_insert_self settings key value
  | cons next path =>
    rw [assign_cons, if_neg (List.cons_ne_nil next path)]
    exact named?_insert_self settings key _

theorem get?_assign_of_ne (settings : Mapping Value) {key : String} {k : Value}
    (h : k ≠ .str key) (path : KeyPath) (value : Value) :
    Mapping.get? (assign settings (key :: path) value) k = Mapping.get? settings k := by
  cases path with
  | nil => exact get?_insert_of_ne settings h value
  | cons next path =>
    rw [assign_cons]
    exact get?_insert_of_ne settings h _

theorem behind?_assign_inside (hp : path ≠ []) :
    (Value.mapping (assign settings path value)).behind? (keysOf path ++ rest) =
      value.behind? rest := by
  induction path generalizing settings with
  | nil => exact absurd rfl hp
  | cons key path ih =>
    rw [keysOf, List.map_cons, List.cons_append, Value.behind?_cons, get?_assign_self,
      Option.bind_some]
    by_cases hpath : path = []
    · rw [if_pos hpath, hpath]
      rfl
    · rw [if_neg hpath]
      exact ih hpath

theorem behind?_assign_above (h : keys <+: keysOf path) (hne : keys ≠ keysOf path) :
    ∃ entries, (Value.mapping (assign settings path value)).behind? keys =
      some (.mapping entries) := by
  induction path generalizing settings keys with
  | nil => exact absurd (List.prefix_nil.mp h) hne
  | cons key path ih =>
    cases keys with
    | nil => exact ⟨_, rfl⟩
    | cons k keys =>
      obtain ⟨rfl, htail⟩ := List.cons_prefix_cons.mp h
      have hne' : keys ≠ keysOf path := by
        intro he
        exact hne (congrArg _ he)
      have hpath : path ≠ [] := by
        rintro rfl
        exact hne' (List.prefix_nil.mp htail)
      rw [Value.behind?_cons, get?_assign_self, if_neg hpath, Option.bind_some]
      exact ih htail hne'

theorem behind?_assign_beside (h : Unrelated (keysOf path) keys) :
    (Value.mapping (assign settings path value)).behind? keys =
      (Value.mapping settings).behind? keys := by
  induction path generalizing settings keys with
  | nil => exact absurd List.nil_prefix h.1
  | cons key path ih =>
    cases keys with
    | nil => exact absurd List.nil_prefix h.2
    | cons k keys =>
      rw [Value.behind?_cons, Value.behind?_cons]
      by_cases hk : k = .str key
      · -- both paths go on, so a value that gives way to a mapping had nothing at the other one
        subst hk
        have hrest : Unrelated (keysOf path) keys := h.tail
        have hpath : path ≠ [] := mt (congrArg keysOf) hrest.left_ne_nil
        have hkeys : keys ≠ [] := Unrelated.left_ne_nil hrest.symm
        rw [get?_assign_self, if_neg hpath, Option.bind_some, ih hrest, behind?_opened _ hkeys]
        rfl
      · rw [get?_assign_of_ne settings hk]

theorem mapping_behind?_assign (hno : ¬keysOf path <+: keys)
    (h : keys <+: keysOf path ∨
      ∃ entries, (Value.mapping settings).behind? keys = some (.mapping entries)) :
    ∃ entries, (Value.mapping (assign settings path value)).behind? keys =
      some (.mapping entries) := by
  by_cases hp : keys <+: keysOf path
  · refine behind?_assign_above hp ?_
    rintro rfl
    exact hno List.prefix_rfl
  · rw [behind?_assign_beside ⟨hno, hp⟩]
    exact h.resolve_left hp

end Config

end PathRouting
