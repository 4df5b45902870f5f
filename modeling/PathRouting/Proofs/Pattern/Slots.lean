import PathRouting.Proofs.Pattern.Composition
import PathRouting.Proofs.Regex.Moves

/-!
# The groups of the parameters

Each part of a tree has its own range of group numbers. A part that is matched leaves the groups
of the others alone, so what a parameter has captured stays until the end.
-/
namespace PathRouting.Pattern

open Regex

variable {condition : String → Except Failure Value} {groups last : Nat} {value : Value}
  {body : Node} {parts : List Segment} {slots : List (String × Nat)} {nodes : List Node}

theorem Fills.lt [CharacterNames] (h : Fills groups value body last) : groups < last := by
  cases h <;> omega

theorem Fills.numbers [CharacterNames] (h : Fills groups value body last) {n : Nat}
    (hn : n ∈ body.numbers) : groups + 1 < n ∧ n ≤ last := by
  cases h with
  | absent => cases hn
  | @expression source e _ he hs _ =>
    rw [hs.numbers] at hn
    obtain ⟨k, hk, rfl⟩ := List.mem_map.mp hn
    have hr := (numbers_ofChars he).subset hk
    rw [List.mem_range'_1] at hr
    omega
  | @listed _ texts =>
    have he : (anyNode texts).numbers = [] := by
      simp [anyNode, literals, Node.numbers, List.flatMap_map]
    rw [he] at hn
    cases hn

namespace Composed

variable [CharacterNames]

theorem le (h : Composed condition groups parts slots nodes last) : groups ≤ last := by
  induction h with
  | nil => exact Nat.le_refl _
  | literal text _ ih => exact ih
  | param _ hf _ ih =>
    have hl := hf.lt
    omega
  | optional dependsOn _ _ ihp ihr => exact Nat.le_trans ihp ihr

theorem names (h : Composed condition groups parts slots nodes last) :
    slots.map Prod.fst = Segment.namesOf parts := by
  induction h with
  | nil => rfl
  | literal text _ ih => simpa [Segment.namesOf, Segment.names] using ih
  | param _ _ _ ih => simp [Segment.namesOf, Segment.names, ih]
  | optional dependsOn _ _ ihp ihr => simp [Segment.namesOf, Segment.names, ihp, ihr]

theorem slots_bound (h : Composed condition groups parts slots nodes last) :
    ∀ slot ∈ slots, groups < slot.2 ∧ slot.2 ≤ last := by
  induction h with
  | nil => simp
  | literal text _ ih => exact ih
  | param _ hf hc ih =>
    have hl := hf.lt
    have hle := hc.le
    intro slot hs
    rcases List.mem_cons.mp hs with rfl | hs
    · exact ⟨Nat.lt_succ_self _, by dsimp only; omega⟩
    · have hb := ih slot hs
      exact ⟨by omega, hb.2⟩
  | optional dependsOn hp hr ihp ihr =>
    have hl := hp.le
    have hl' := hr.le
    intro slot hs
    rcases List.mem_append.mp hs with hs | hs
    · have hb := ihp slot hs
      exact ⟨hb.1, by omega⟩
    · have hb := ihr slot hs
      exact ⟨by omega, hb.2⟩

theorem numbers (h : Composed condition groups parts slots nodes last) :
    ∀ n ∈ nodes.flatMap Node.numbers, groups < n ∧ n ≤ last := by
  induction h with
  | nil => simp
  | literal text _ ih => simpa [literals, List.flatMap_map, Node.numbers] using ih
  | param _ hf hc ih =>
    have hl := hf.lt
    have hle := hc.le
    intro n hn
    rw [List.flatMap_cons, List.mem_append, Node.numbers, List.mem_cons] at hn
    rcases hn with (rfl | hn) | hn
    · exact ⟨Nat.lt_succ_self _, by omega⟩
    · have hb := hf.numbers hn
      exact ⟨by omega, by omega⟩
    · have hb := ih n hn
      exact ⟨by omega, hb.2⟩
  | optional dependsOn hp hr ihp ihr =>
    have hl := hp.le
    have hl' := hr.le
    intro n hn
    rw [List.flatMap_cons, List.mem_append] at hn
    rcases hn with hn | hn
    · have hb := ihp n (by simpa [Node.numbers] using hn)
      exact ⟨hb.1, by omega⟩
    · have hb := ihr n hn
      exact ⟨by omega, hb.2⟩

theorem reaches (h : Composed condition groups parts slots nodes last) {mode : Mode}
    {c d : Cursor} (hd : d ∈ (Node.ofList nodes).ways mode c) :
    Reaches (fun n => groups < n ∧ n ≤ last) c d := by
  refine ((Node.ofList nodes).ways_keeps mode c d hd).mono ?_
  intro n hn
  rw [Node.numbers_ofList] at hn
  exact h.numbers n hn

theorem reaches_optional (h : Composed condition groups parts slots nodes last) {mode : Mode}
    {c d : Cursor} (hd : d ∈ (Node.ofList nodes).ways mode c ++ [c]) :
    Reaches (fun n => groups < n ∧ n ≤ last) c d := by
  rcases List.mem_append.mp hd with hd | hd
  · exact h.reaches hd
  · obtain rfl := List.mem_singleton.mp hd
    exact .refl _ d

end Composed

def Fresh (groups : Nat) (c : Cursor) : Prop := ∀ n, groups < n → c.bounds? n = none

variable {own : Nat → Prop} {taken : List Char} {c d : Cursor}

/-- The group of a parameter captures what its condition takes, and keeps to its groups. -/
theorem Fills.captured [CharacterNames] (h : Fills groups value body last) {mode : Mode}
    {i : Cursor} (hi : i ∈ body.ways mode (c.enter (groups + 1))) :
    ∃ taken, Moved (fun n => groups < n ∧ n ≤ last) taken c (i.leave (groups + 1)) ∧
      (i.leave (groups + 1)).captured? (groups + 1) = some taken := by
  obtain ⟨taken, hm⟩ := body.ways_keeps mode _ i hi
  have hown : groups + 1 ∉ body.numbers := fun hn => Nat.lt_irrefl _ (h.numbers hn).1
  refine ⟨taken, hm.group.mono ?_, hm.captured_group hown⟩
  rintro n (rfl | hn)
  · exact ⟨Nat.lt_succ_self _, h.lt⟩
  · have hb := h.numbers hn
    exact ⟨by omega, hb.2⟩

theorem Fresh.captured (h : Fresh groups c) {n : Nat} (hn : groups < n) :
    c.captured? n = none := by
  rw [Cursor.captured?, h n hn]
  rfl

theorem Fresh.moved (h : Fresh groups c) (hm : Moved own taken c d) (hle : groups ≤ last)
    (ho : ∀ n, own n → n ≤ last) : Fresh last d := by
  intro n hn
  rw [hm.bounds fun hown => absurd (ho n hown) (by omega)]
  exact h n (by omega)

def capturedBy (slots : List (String × Nat)) (d : Cursor) : Captures :=
  slots.filterMap fun slot => (d.captured? slot.2).map fun text => (slot.1, String.ofList text)

theorem capturedBy_append (slots slots' : List (String × Nat)) (d : Cursor) :
    capturedBy (slots ++ slots') d = capturedBy slots d ++ capturedBy slots' d :=
  List.filterMap_append

theorem capturedBy_moved (hm : Moved own taken c d) (hs : ∀ slot ∈ slots, ¬own slot.2) :
    capturedBy slots d = capturedBy slots c := by
  refine List.filterMap_congr ?_
  intro slot hslot
  rw [hm.captured (hs slot hslot)]

theorem capturedBy_fresh (h : Fresh groups c) (hs : ∀ slot ∈ slots, groups < slot.2) :
    capturedBy slots c = [] := by
  refine List.filterMap_eq_nil_iff.mpr ?_
  intro slot hslot
  rw [h.captured (hs slot hslot)]
  rfl

end PathRouting.Pattern
