import Mathlib.Data.List.Forall2
import PathRouting.Pattern.Decomposition
import PathRouting.Proofs.Regex.Moves

/-!
# What simple expressions take

The ways in which literal characters, runs of characters, alternatives and optional parts take
text, in the order in which they are tried, with every flag off.
-/
namespace PathRouting.Regex

theorem Node.ways_ofList_cons (x : Node) (xs : List Node) (mode : Mode) (c : Cursor) :
    (ofList (x :: xs)).ways mode c = (x.ways mode c).flatMap ((ofList xs).ways mode) := by
  cases xs with
  | nil => simp [ofList, ways]
  | cons y ys => rfl

theorem Node.ways_ofList_append (xs ys : List Node) (mode : Mode) (c : Cursor) :
    (ofList (xs ++ ys)).ways mode c =
      ((ofList xs).ways mode c).flatMap ((ofList ys).ways mode) := by
  induction xs generalizing c with
  | nil => simp [ofList, ways]
  | cons x xs ih =>
    rw [List.cons_append, ways_ofList_cons, ways_ofList_cons, List.flatMap_assoc]
    congr 1
    funext d
    exact ih d

theorem Node.ways_ofAlternatives {xs : List Node} (h : xs ≠ []) (mode : Mode) (c : Cursor) :
    (ofAlternatives xs).ways mode c = xs.flatMap fun x => x.ways mode c := by
  induction xs with
  | nil => exact absurd rfl h
  | cons x xs ih =>
    cases xs with
    | nil => simp [ofAlternatives]
    | cons y ys =>
      have hs : (ofAlternatives (x :: y :: ys)).ways mode c =
          x.ways mode c ++ (ofAlternatives (y :: ys)).ways mode c := rfl
      rw [hs, ih (by simp)]
      rfl

theorem Node.ways_optional (x : Node) (mode : Mode) (c : Cursor) :
    (repetition .greedy 0 (some 1) x).ways mode c = x.ways mode c ++ [c] := by
  simp [ways, Walk.repeated, Walk.times, Walk.greedy, rounds]

/-- A piece of text that is taken with what is left, and the place behind it. -/
structure Takes (c : Cursor) (way : List Char × List Char) (d : Cursor) : Prop where
  left : d.rest = way.2
  moved : Moved (fun _ => False) way.1 c d

theorem takes_refl (c : Cursor) : Takes c ([], c.rest) c := ⟨rfl, .refl _ c⟩

def Cursor.next (c : Cursor) (x : Char) (rest : List Char) : Cursor :=
  { c with before := x :: c.before, rest := rest }

theorem takes_next {c : Cursor} {x : Char} {rest : List Char} (hc : c.rest = x :: rest)
    {ways : List (List Char × List Char)} {ds : List Cursor}
    (h : List.Forall₂ (Takes (c.next x rest)) ways ds) :
    List.Forall₂ (Takes c) (ways.map fun way => (x :: way.1, way.2)) ds := by
  have hn : Moved (fun _ => False) [x] c (c.next x rest) :=
    ⟨hc, rfl, fun _ _ => rfl, fun _ _ => rfl⟩
  refine List.forall₂_map_left_iff.mpr (h.imp ?_)
  intro way d hd
  exact ⟨hd.left, hn.trans hd.moved⟩

theorem takes_literals (text : List Char) (c : Cursor) :
    List.Forall₂ (Takes c) ((Text.dropStart? text c.rest).toList.map fun left => (text, left))
      ((Node.ofList (text.map fun x => .literal x.toNat)).ways .plain c) := by
  induction text generalizing c with
  | nil => exact .cons (takes_refl c) .nil
  | cons x text ih =>
    rw [List.map_cons, Node.ways_ofList_cons]
    cases hc : c.rest with
    | nil =>
      rw [Node.ways, Cursor.advance?, hc]
      exact .nil
    | cons y rest =>
      rw [Node.ways, Cursor.advance?, hc]
      by_cases hx : y = x
      · subst hx
        have ht := ih (c.next y rest)
        have hh : literalHolds .plain y.toNat y = true := by simp [literalHolds, Mode.plain]
        simp only [Text.dropStart?, if_true, hh, Option.toList_some, List.flatMap_cons,
          List.flatMap_nil, List.append_nil]
        simpa [Function.comp_def, Cursor.next] using takes_next hc ht
      · have hh : literalHolds .plain x.toNat y = false := by
          simp only [literalHolds, Mode.plain, Bool.false_eq_true, if_false, beq_eq_false_iff_ne]
          exact fun h => hx (Char.toNat_inj.mp h)
        simp only [Text.dropStart?, if_neg hx, hh, Bool.false_eq_true, if_false]
        exact .nil

theorem moved_of_mem_literals {text : List Char} {c d : Cursor}
    (h : d ∈ (Node.ofList (text.map fun x => .literal x.toNat)).ways .plain c) :
    Moved (fun _ => False) text c d := by
  have ht := List.forall₂_map_left_iff.mp (takes_literals text c)
  generalize (Text.dropStart? text c.rest).toList = lefts at ht
  generalize (Node.ofList (text.map fun x => .literal x.toNat)).ways .plain c = ds at h ht
  induction ht with
  | nil => cases h
  | cons hd _ ih =>
    rcases List.mem_cons.mp h with rfl | h
    · exact hd.moved
    · exact ih h

theorem takes_run {p : Char → Bool} {w : Walk} (hw : ∀ c, w c = (c.advance? p).toList)
    {fuel : Nat} {last : Option Nat} {c : Cursor} (hf : c.rest.length < fuel)
    (hl : last ≠ some c.position) :
    List.Forall₂ (Takes c) (Pattern.Allowed.splits p c.rest) (w.greedy fuel none last c) := by
  induction fuel generalizing last c with
  | zero => omega
  | succ fuel ih =>
    rw [Walk.greedy, if_neg (by simpa using hl), hw]
    cases hc : c.rest with
    | nil =>
      simp only [Cursor.advance?, hc]
      exact .cons (hc ▸ takes_refl c) .nil
    | cons x rest =>
      have hpos : (c.next x rest).position = c.position + 1 := rfl
      have hlen : rest.length < fuel := by
        rw [hc, List.length_cons] at hf
        omega
      have ht := ih (c := c.next x rest) hlen (show some c.position ≠ some _ by simp [hpos])
      have hstay : Takes c ([], x :: rest) c := hc ▸ takes_refl c
      simp only [Cursor.advance?, hc, Pattern.Allowed.splits]
      cases hp : p x with
      | false =>
        simp only [Bool.false_eq_true, if_false]
        exact .cons hstay .nil
      | true =>
        simp only [if_true, Option.toList_some, List.flatMap_cons, List.flatMap_nil,
          List.append_nil, Option.map_none]
        exact List.rel_append (takes_next hc ht) (.cons hstay .nil)

theorem takes_star {p : Char → Bool} {x : Node}
    (hx : ∀ c, x.ways .plain c = (c.advance? p).toList) (c : Cursor) :
    List.Forall₂ (Takes c) (Pattern.Allowed.splits p c.rest)
      ((Node.repetition .greedy 0 none x).ways .plain c) := by
  have hr : (Node.repetition .greedy 0 none x).ways .plain c =
      (x.ways .plain).greedy (rounds c) none none c := by
    simp [Node.ways, Walk.repeated, Walk.times]
  rw [hr]
  exact takes_run hx (by rw [rounds]; omega) (by simp)

theorem filter_splits {p : Char → Bool} (x : Char) (rest : List Char) :
    (Pattern.Allowed.splits p (x :: rest)).filter (fun way => !way.1.isEmpty) =
      if p x then (Pattern.Allowed.splits p rest).map fun way => (x :: way.1, way.2) else [] := by
  rw [Pattern.Allowed.splits]
  split
  · rw [List.filter_append, List.filter_map]
    simp [Function.comp_def]
  · simp

theorem takes_plus {p : Char → Bool} {x : Node}
    (hx : ∀ c, x.ways .plain c = (c.advance? p).toList) (c : Cursor) :
    List.Forall₂ (Takes c)
      ((Pattern.Allowed.splits p c.rest).filter fun way => !way.1.isEmpty)
      ((Node.repetition .greedy 1 none x).ways .plain c) := by
  have hr : (Node.repetition .greedy 1 none x).ways .plain c =
      (c.advance? p).toList.flatMap fun d => (x.ways .plain).greedy (rounds d) none none d := by
    simp [Node.ways, Walk.repeated, Walk.times, hx]
  rw [hr]
  cases hc : c.rest with
  | nil =>
    simp only [Cursor.advance?, hc]
    exact .nil
  | cons y rest =>
    rw [filter_splits]
    simp only [Cursor.advance?, hc]
    cases hp : p y with
    | false => exact .nil
    | true =>
      have ht : List.Forall₂ (Takes (c.next y rest)) (Pattern.Allowed.splits p rest)
          ((x.ways .plain).greedy (rounds (c.next y rest)) none none (c.next y rest)) :=
        takes_run hx (by rw [rounds]; omega) (by simp)
      simp only [if_true, Option.toList_some, List.flatMap_cons, List.flatMap_nil,
        List.append_nil]
      exact takes_next hc ht

theorem takes_alternatives (texts : List (List Char)) (c : Cursor) :
    List.Forall₂ (Takes c)
      (texts.filterMap fun text =>
        (Text.dropStart? text c.rest).map fun left => (text, left))
      (texts.flatMap fun text =>
        (Node.ofList (text.map fun x => .literal x.toNat)).ways .plain c) := by
  induction texts with
  | nil => exact .nil
  | cons text texts ih =>
    have ht := takes_literals text c
    rw [List.flatMap_cons, List.filterMap_cons]
    cases hd : Text.dropStart? text c.rest with
    | none =>
      rw [hd] at ht
      exact List.rel_append ht ih
    | some left =>
      rw [hd] at ht
      exact List.rel_append ht ih

end PathRouting.Regex
