import Mathlib.Data.List.Basic
import PathRouting.Proofs.Pattern.Decomposing

/-!
# Text behind a mark

Where neither the literal text of a tree nor what its parameters may take holds some character, a
search along the tree takes no notice of that character and of what stands behind it.
-/
namespace PathRouting

namespace Segment

mutual

def literals : Segment → List String
  | .literal text => [text]
  | .param _ => []
  | .optional _ parts => literalsOf parts

def literalsOf : List Segment → List String
  | [] => []
  | part :: rest => literals part ++ literalsOf rest

end

end Segment

variable {mark : Char} {s : List Char}

theorem Text.dropStart_marked {start : List Char} (h : mark ∉ start) (tail : List Char) :
    dropStart? start (s ++ mark :: tail) = (dropStart? start s).map (· ++ mark :: tail) := by
  induction start generalizing s with
  | nil => rfl
  | cons c start ih =>
    rw [List.mem_cons, not_or] at h
    cases s with
    | nil => simp [dropStart?, h.1]
    | cons x s =>
      rw [List.cons_append, dropStart?, dropStart?]
      split
      · exact ih h.2
      · rfl

namespace Pattern

def Allowed.Lacks (a : Allowed) (mark : Char) : Prop :=
  ∀ text : List Char, a.holds text = true → mark ∉ text

theorem Allowed.splits_marked {p : Char → Bool} (h : p mark = false) (tail : List Char) :
    splits p (s ++ mark :: tail) = (splits p s).map (Prod.map id (· ++ mark :: tail)) := by
  induction s with
  | nil => simp [splits, h]
  | cons x s ih =>
    rw [List.cons_append, splits, splits]
    split
    · rw [ih, List.map_append, List.map_map, List.map_map]
      rfl
    · rfl

theorem Allowed.takes_marked {a : Allowed} (h : a.Lacks mark) (tail : List Char) :
    a.takes (s ++ mark :: tail) = (a.takes s).map (Prod.map id (· ++ mark :: tail)) := by
  cases a with
  | nameRun =>
    have hmark : isNameChar mark = false := by
      rw [← Bool.not_eq_true]
      intro hm
      exact h [mark] (by simp [holds, hm]) (List.mem_singleton_self mark)
    rw [takes, takes, splits_marked hmark, List.filter_map]
    rfl
  | line =>
    have hmark : (mark != '\n') = false := by
      rw [← Bool.not_eq_true, bne_iff_ne]
      intro hm
      exact h [mark] (by simpa [holds] using Ne.symm hm) (List.mem_singleton_self mark)
    exact splits_marked (p := (· != '\n')) hmark tail
  | oneOf texts =>
    rw [takes, takes, List.map_filterMap]
    refine List.filterMap_congr ?_
    intro text ht
    have hlacks : mark ∉ text.toList := h text.toList (by simpa [holds] using ht)
    rw [Text.dropStart_marked hlacks, Option.map_map, Option.map_map]
    rfl

variable {allowed : String → Allowed}

theorem waysOf_cons_marked {part : Segment} {rest : List Segment} {tail : List Char}
    (hpart : ways allowed part (s ++ mark :: tail) =
      (ways allowed part s).map (Prod.map id (· ++ mark :: tail)))
    (hrest : ∀ left, waysOf allowed rest (left ++ mark :: tail) =
      (waysOf allowed rest left).map (Prod.map id (· ++ mark :: tail))) :
    waysOf allowed (part :: rest) (s ++ mark :: tail) =
      (waysOf allowed (part :: rest) s).map (Prod.map id (· ++ mark :: tail)) := by
  rw [waysOf, waysOf, hpart, List.flatMap_map, List.map_flatMap]
  congr 1
  funext way
  simp only [Prod.map_fst, Prod.map_snd, hrest, List.map_map]
  rfl

/-- What stands behind a character that a tree cannot take is left over in every way. -/
theorem waysOf_marked {parts : List Segment}
    (hliteral : ∀ text ∈ Segment.literalsOf parts, mark ∉ text.toList)
    (hparam : ∀ name ∈ Segment.namesOf parts, (allowed name).Lacks mark) (tail : List Char) :
    waysOf allowed parts (s ++ mark :: tail) =
      (waysOf allowed parts s).map (Prod.map id (· ++ mark :: tail)) := by
  induction parts using Segment.sequence_induction generalizing s with
  | nil => rfl
  | literal text rest ih =>
    have htext := hliteral text (List.mem_cons_self ..)
    refine waysOf_cons_marked ?_ fun left =>
      ih (fun other ho => hliteral other (List.mem_cons_of_mem _ ho)) hparam
    rw [ways, ways, Text.dropStart_marked htext]
    cases Text.dropStart? text.toList s <;> rfl
  | param name rest ih =>
    have hname := hparam name (List.mem_cons_self ..)
    refine waysOf_cons_marked ?_ fun left =>
      ih hliteral fun other ho => hparam other (List.mem_cons_of_mem _ ho)
    rw [ways, ways, Allowed.takes_marked hname, List.map_map, List.map_map]
    rfl
  | optional dependsOn parts rest ihp ihr =>
    refine waysOf_cons_marked ?_ fun left =>
      ihr (fun other ho => hliteral other (List.mem_append_right _ ho))
        fun other ho => hparam other (List.mem_append_right _ ho)
    rw [ways, ways, ihp (fun other ho => hliteral other (List.mem_append_left _ ho))
      fun other ho => hparam other (List.mem_append_left _ ho), List.map_append]
    rfl

end Pattern

end PathRouting
