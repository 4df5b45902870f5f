import PathRouting.Pattern.Builder
import PathRouting.Proofs.Pattern.Decomposing

/-!
# Separated parameters

Where a character that no name has stands between any two parameters, a path has one
decomposition only. A run of name characters may go on into the literal text behind it, and it
has to give back exactly what lies before the first character that no name has.
-/
namespace PathRouting

/-- Whether there is no group, and some character that no name has between any two parameters.
Behind a parameter such a character is due. -/
def Segment.isSeparated (due : Bool) : List Segment → Bool
  | [] => true
  | .literal text :: rest => isSeparated (due && text.toList.all Pattern.isNameChar) rest
  | .param _ :: rest => !due && isSeparated true rest
  | .optional _ _ :: _ => false

namespace Pattern

open Segment

variable {allowed : String → Allowed} {tail : List Segment}

/-- Parts that begin with no name character and decompose in one way. -/
structure Determinate (allowed : String → Allowed) (tail : List Segment) : Prop where
  apart : ∀ {s found}, Decomposes allowed tail s found → s.takeWhile isNameChar = []
  unique : ∀ {s found found'}, Decomposes allowed tail s found →
    Decomposes allowed tail s found' → found = found'

/-- Two runs of name characters are the same where name characters go on equally far. -/
theorem run_unique {run run' s s' : List Char} (hrun : run.all isNameChar = true)
    (hrun' : run'.all isNameChar = true) (he : run ++ s = run' ++ s')
    (hs : s.takeWhile isNameChar = s'.takeWhile isNameChar) : run = run' := by
  have ht := congrArg (List.takeWhile isNameChar) he
  rw [List.takeWhile_append_of_pos (List.all_eq_true.mp hrun),
    List.takeWhile_append_of_pos (List.all_eq_true.mp hrun'), hs] at ht
  exact List.append_cancel_right ht

theorem takeWhile_append_of_not_all {text : List Char} (h : ¬text.all isNameChar = true)
    (s : List Char) : (text ++ s).takeWhile isNameChar = text.takeWhile isNameChar := by
  rw [List.takeWhile_append, if_neg]
  intro hl
  rw [← (List.takeWhile_prefix isNameChar).eq_of_length hl] at h
  exact h List.all_takeWhile

/-- Literal text that holds a separator, or before which none is due, shows where a run ends. -/
theorem run_closed {due : Bool} {run run' text s s' : List Char}
    (hclosed : (due && text.all isNameChar) = false) (hrun : run.all isNameChar = true)
    (hrun' : run'.all isNameChar = true) (hdue : due = false → run = run')
    (he : run ++ (text ++ s) = run' ++ (text ++ s')) : run = run' := by
  cases due with
  | false => exact hdue rfl
  | true =>
    have htext : ¬text.all isNameChar = true := Bool.eq_false_iff.mp hclosed
    refine run_unique hrun hrun' he ?_
    rw [takeWhile_append_of_not_all htext, takeWhile_append_of_not_all htext]

/-- A separated sequence decomposes in one way. What was taken before it may be a run of name
characters whose end is open as long as a separator is due. -/
theorem Determinate.separated (ht : Determinate allowed tail) {due : Bool} {parts : List Segment}
    {run run' s s' : List Char} {found found' : Captures} (hsep : isSeparated due parts = true)
    (hall : ∀ name ∈ namesOf parts, allowed name = .nameRun)
    (hrun : run.all isNameChar = true) (hrun' : run'.all isNameChar = true)
    (hdue : due = false → run = run') (he : run ++ s = run' ++ s')
    (hd : Decomposes allowed (parts ++ tail) s found)
    (hd' : Decomposes allowed (parts ++ tail) s' found') : run = run' ∧ found = found' := by
  induction parts generalizing due run run' s s' found found' with
  | nil =>
    have hs : run = run' := run_unique hrun hrun' he ((ht.apart hd).trans (ht.apart hd').symm)
    subst hs
    obtain rfl := List.append_cancel_left he
    exact ⟨rfl, ht.unique hd hd'⟩
  | cons part rest ih =>
    cases part with
    | literal text =>
      cases hd with
      | @literal _ _ s _ hd =>
        cases hd' with
        | @literal _ _ s' _ hd' =>
          have hrest : ∀ name ∈ namesOf rest, allowed name = .nameRun := hall
          rw [isSeparated] at hsep
          cases hopen : due && text.toList.all isNameChar with
          | true =>
            -- the end is still open: the literal text counts as part of the run
            have hlong : ∀ {r : List Char}, r.all isNameChar = true →
                (r ++ text.toList).all isNameChar = true := by
              intro r hr
              rw [List.all_append, hr, (Bool.and_eq_true_iff.mp hopen).2]
              rfl
            rw [← List.append_assoc, ← List.append_assoc] at he
            rw [hopen] at hsep
            obtain ⟨hs, hfound⟩ := ih hsep hrest (hlong hrun) (hlong hrun') nofun he hd hd'
            exact ⟨List.append_cancel_right hs, hfound⟩
          | false =>
            obtain rfl := run_closed hopen hrun hrun' hdue he
            have hnil : [].all isNameChar = true := rfl
            have he' := List.append_cancel_left (List.append_cancel_left he)
            rw [hopen] at hsep
            exact ⟨rfl, (ih hsep hrest hnil hnil (fun _ => rfl) he' hd hd').2⟩
    | param name =>
      cases hd with
      | @param _ taken _ s _ hh hd =>
        cases hd' with
        | @param _ taken' _ s' _ hh' hd' =>
          rw [isSeparated, Bool.and_eq_true, Bool.not_eq_true'] at hsep
          obtain rfl := hdue hsep.1
          have hname : allowed name = .nameRun := hall name (List.mem_cons_self ..)
          rw [hname, Allowed.holds, Bool.and_eq_true] at hh hh'
          obtain ⟨rfl, rfl⟩ := ih hsep.2 (fun n hn => hall n (List.mem_cons_of_mem _ hn)) hh.2
            hh'.2 nofun (List.append_cancel_left he) hd hd'
          exact ⟨rfl, rfl⟩
    | optional dependsOn inner => cases hsep

theorem Determinate.decompose_eq_some (ht : Determinate allowed tail) {parts : List Segment}
    {path : String} {found : Captures} (hsep : isSeparated false parts = true)
    (hall : ∀ name ∈ namesOf parts, allowed name = .nameRun)
    (hd : Decomposes allowed (parts ++ tail) path.toList found) :
    decompose? allowed (parts ++ tail) path = some found := by
  cases hf : decompose? allowed (parts ++ tail) path with
  | none => exact absurd hd (decompose_eq_none_iff.mp hf found)
  | some other =>
    have hnil : [].all isNameChar = true := rfl
    obtain ⟨-, rfl⟩ := ht.separated hsep hall hnil hnil (fun _ => rfl) rfl (decompose_sound hf) hd
    rfl

theorem decomposes_built {defaults : Mapping String} {params : Mapping Value}
    {value : String → String} {due : Bool} {parts : List Segment} {s : List Char}
    {found : Captures} (hsep : isSeparated due parts = true)
    (hvalue : ∀ name ∈ namesOf parts, givenText? params name = some (value name) ∧
      (allowed name).holds (value name).toList = true)
    (hd : Decomposes allowed tail s found) :
    Decomposes allowed (parts ++ tail) ((buildParts defaults params parts).toList ++ s)
      ((namesOf parts).map (fun name => (name, value name)) ++ found) := by
  induction parts generalizing due with
  | nil => exact hd
  | cons part rest ih =>
    rw [buildParts, String.toList_append, List.append_assoc]
    cases part with
    | literal text => exact .literal text (ih hsep hvalue)
    | param name =>
      rw [isSeparated, Bool.and_eq_true] at hsep
      obtain ⟨hgiven, hholds⟩ := hvalue name (List.mem_cons_self ..)
      have hrest := ih hsep.2 fun n hn => hvalue n (List.mem_cons_of_mem _ hn)
      rw [buildPart, hgiven]
      have hparam : Decomposes allowed (.param name :: (rest ++ tail)) _ _ :=
        .param hholds hrest
      rw [String.ofList_toList] at hparam
      exact hparam
    | optional dependsOn inner => cases hsep

end Pattern

end PathRouting
