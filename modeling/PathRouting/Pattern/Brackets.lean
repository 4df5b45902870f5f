import PathRouting.Pattern.Name

/-!
# Matching brackets

Which bracket of a text closes which, said without reading the text from left to right: two
brackets are partners when the text between them is balanced.
-/
namespace PathRouting.Pattern

/-- Texts in which every bracket has a partner. -/
inductive Balanced : List Char → Prop where
  | nil : Balanced []
  | plain {c : Char} {rest : List Char} : c ≠ groupOpen → c ≠ groupClose → Balanced rest →
      Balanced (c :: rest)
  | group {inside rest : List Char} : Balanced inside → Balanced rest →
      Balanced (groupOpen :: (inside ++ groupClose :: rest))

/-- The bracket at place `i` is closed by the one at place `j`. -/
def Partners (text : List Char) (i j : Nat) : Prop :=
  ∃ before inside after, text = before ++ groupOpen :: (inside ++ groupClose :: after) ∧
    Balanced inside ∧ i = before.length ∧ j = before.length + 1 + inside.length

/-- At this place stands a bracket that has no partner. -/
inductive Unmatched (text : List Char) (place : Nat) : Prop where
  | opening : text[place]? = some groupOpen → (∀ j, ¬Partners text place j) →
      Unmatched text place
  | closing : text[place]? = some groupClose → (∀ i, ¬Partners text i place) →
      Unmatched text place

/-- The leftmost bracket that has no partner. -/
structure FirstUnmatched (text : List Char) (place : Nat) : Prop where
  unmatched : Unmatched text place
  leftmost : ∀ earlier < place, ¬Unmatched text earlier

end PathRouting.Pattern
