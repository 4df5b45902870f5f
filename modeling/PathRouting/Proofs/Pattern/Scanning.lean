import PathRouting.Pattern.Canonical
import PathRouting.Pattern.Scan
import Mathlib.Data.List.Chain

/-!
# Literal runs and placeholders in one pass

A `<` that is followed by the beginning of a name may still become a placeholder. The scanner
keeps such text apart until it is decided. What it has finished is canonical with the last part
first, and together with what is pending it is the text that was read.
-/
namespace PathRouting.Pattern

open Segment

def NameBeginning (s : List Char) : Prop := s = [] ∨ isName s = true

/-- A text at whose end a placeholder may still be open. -/
def EndsOpen (s : List Char) : Prop :=
  ∃ before name, NameBeginning name ∧ s = before ++ placeholderOpen :: name

theorem all_isNameChar_of_isName {s : List Char} (h : isName s = true) :
    ∀ c ∈ s, isNameChar c = true := by
  cases s with
  | nil => simp [isName] at h
  | cons x s =>
    simp only [isName, Bool.and_eq_true, List.all_eq_true] at h
    intro c hc
    rcases List.mem_cons.mp hc with rfl | hc
    · exact isNameChar_of_isNameStart h.1
    · exact h.2 c hc

theorem NameBeginning.all_isNameChar {s : List Char} (h : NameBeginning s) :
    ∀ c ∈ s, isNameChar c = true := by
  rcases h with rfl | h
  · simp
  · exact all_isNameChar_of_isName h

theorem NameBeginning.open_notMem {s : List Char} (h : NameBeginning s) :
    placeholderOpen ∉ s := by
  intro hm
  exact absurd (h.all_isNameChar _ hm) (by decide)

/-- Going on with a name, one character at a time, gives exactly the beginnings of names. -/
theorem nameBeginning_snoc {s : List Char} {c : Char} :
    NameBeginning (s ++ [c]) ↔ NameBeginning s ∧ Scan.continuesName s.reverse c = true := by
  cases s with
  | nil => simp [NameBeginning, Scan.continuesName, isName]
  | cons x s =>
    simp [NameBeginning, Scan.continuesName, isName, and_assoc]

theorem nameBeginning_left {s t : List Char} (h : NameBeginning (s ++ t)) : NameBeginning s := by
  cases s with
  | nil => exact Or.inl rfl
  | cons x s =>
    rcases h with h | h
    · simp at h
    · refine Or.inr ?_
      simp only [List.cons_append, isName, Bool.and_eq_true, List.all_append] at h ⊢
      exact ⟨h.1, h.2.1⟩

theorem startsWithName_iff {s : List Char} :
    startsWithName s = true ↔
      ∃ name after, isName name = true ∧ s = name ++ placeholderClose :: after := by
  simp only [startsWithName, Bool.and_eq_true, beq_iff_eq]
  constructor
  · rintro ⟨hn, hc⟩
    obtain ⟨after, ha⟩ := List.head?_eq_some_iff.mp hc
    refine ⟨_, after, hn, ?_⟩
    conv_lhs => rw [← List.take_append_drop (s.takeWhile isNameChar).length s]
    rw [ha, ← List.prefix_iff_eq_take.mp (List.takeWhile_prefix _)]
  · rintro ⟨name, after, hn, rfl⟩
    have ht : (name ++ placeholderClose :: after).takeWhile isNameChar = name := by
      rw [List.takeWhile_append_of_pos (all_isNameChar_of_isName hn)]
      simp [isNameChar, isLetter, placeholderClose]
    rw [ht]
    exact ⟨hn, by simp⟩

theorem holdsPlaceholder_iff {s : List Char} :
    holdsPlaceholder s = true ↔ ∃ before name after, isName name = true ∧
      s = before ++ placeholderOpen :: (name ++ placeholderClose :: after) := by
  induction s with
  | nil => simp [holdsPlaceholder]
  | cons c s ih =>
    simp only [holdsPlaceholder, Bool.or_eq_true, Bool.and_eq_true, beq_iff_eq,
      startsWithName_iff, ih]
    constructor
    · rintro (⟨rfl, name, after, hn, rfl⟩ | ⟨before, name, after, hn, rfl⟩)
      · exact ⟨[], name, after, hn, rfl⟩
      · exact ⟨c :: before, name, after, hn, rfl⟩
    · rintro ⟨before, name, after, hn, he⟩
      cases before with
      | nil =>
        obtain ⟨rfl, rfl⟩ := List.cons.inj he
        exact Or.inl ⟨rfl, name, after, hn, rfl⟩
      | cons b before =>
        obtain ⟨rfl, rfl⟩ := List.cons.inj he
        exact Or.inr ⟨before, name, after, hn, rfl⟩

theorem lastOpen_unique {before before' name name' : List Char} (hn : placeholderOpen ∉ name)
    (hn' : placeholderOpen ∉ name')
    (h : before ++ placeholderOpen :: name = before' ++ placeholderOpen :: name') :
    name = name' := by
  have hspan : ∀ xs ys : List Char, placeholderOpen ∉ xs →
      (xs ++ placeholderOpen :: ys).takeWhile (· != placeholderOpen) = xs := by
    intro xs ys hx
    have hall : ∀ a ∈ xs, (a != placeholderOpen) = true := by
      intro a ha
      simpa using fun he : a = placeholderOpen => hx (he ▸ ha)
    rw [List.takeWhile_append_of_pos hall]
    simp
  have hrev := congrArg List.reverse h
  simp only [List.reverse_append, List.reverse_cons, List.append_assoc,
    List.singleton_append] at hrev
  have hl := hspan name.reverse before.reverse (by simpa using hn)
  rw [hrev, hspan name'.reverse before'.reverse (by simpa using hn')] at hl
  exact List.reverse_inj.mp hl.symm

theorem holdsPlaceholder_snoc {s : List Char} {c : Char} (hs : holdsPlaceholder s = false)
    (hc : c = placeholderClose → ∀ before name, isName name = true →
      s ≠ before ++ placeholderOpen :: name) : holdsPlaceholder (s ++ [c]) = false := by
  rw [Bool.eq_false_iff]
  intro h
  obtain ⟨before, name, after, hn, he⟩ := holdsPlaceholder_iff.mp h
  rcases List.eq_nil_or_concat after with rfl | ⟨after, d, rfl⟩
  · have he : s ++ [c] = (before ++ placeholderOpen :: name) ++ [placeholderClose] := by
      simpa using he
    obtain ⟨hb, hd⟩ := List.append_inj' he rfl
    exact hc (List.singleton_inj.mp hd) before name hn hb
  · have he : s ++ [c] =
        (before ++ placeholderOpen :: (name ++ placeholderClose :: after)) ++ [d] := by
      simpa using he
    obtain ⟨rfl, -⟩ := List.append_inj' he rfl
    exact absurd (holdsPlaceholder_iff.mpr ⟨before, name, after, hn, rfl⟩) (by simp [hs])

theorem holdsPlaceholder_append {s t : List Char} (hs : holdsPlaceholder s = false)
    (ht : placeholderClose ∉ t) : holdsPlaceholder (s ++ t) = false := by
  induction t generalizing s with
  | nil => simpa using hs
  | cons c t ih =>
    rw [List.mem_cons, not_or] at ht
    have hc : holdsPlaceholder (s ++ [c]) = false :=
      holdsPlaceholder_snoc hs fun he => absurd he.symm ht.1
    simpa using ih hc ht.2

theorem holdsPlaceholder_left {s t : List Char} (h : holdsPlaceholder (s ++ t) = false) :
    holdsPlaceholder s = false := by
  rw [Bool.eq_false_iff] at h ⊢
  intro hs
  obtain ⟨before, name, after, hn, rfl⟩ := holdsPlaceholder_iff.mp hs
  exact h (holdsPlaceholder_iff.mpr ⟨before, name, after ++ t, hn, by simp⟩)

theorem not_endsOpen_snoc {s : List Char} {c : Char} (hs : ¬EndsOpen s)
    (hc : c ≠ placeholderOpen) : ¬EndsOpen (s ++ [c]) := by
  rintro ⟨before, name, hn, he⟩
  rcases List.eq_nil_or_concat name with rfl | ⟨name, d, rfl⟩
  · exact hc (List.singleton_inj.mp (List.append_inj' he rfl).2)
  · rw [List.concat_eq_append] at hn he
    have he : s ++ [c] = (before ++ placeholderOpen :: name) ++ [d] := by simpa using he
    obtain ⟨rfl, -⟩ := List.append_inj' he rfl
    exact hs ⟨before, name, (nameBeginning_snoc.mp hn).1, rfl⟩

namespace Scan

def openText (s : Scan) : List Char :=
  match s.name with
  | none => []
  | some name => placeholderOpen :: name.reverse

def text (s : Scan) : List Char := renderAll s.done.reverse ++ (s.run.reverse ++ s.openText)

/-- What is pending could not be read in another way: a name is kept apart while it may still
become a parameter, and no end of the literal run may. -/
structure Sound (s : Scan) : Prop where
  done_canonical : allCanonical s.done = true
  done_apart : startsLiterally s.done = false
  run_free : groupOpen ∉ s.run ∧ groupClose ∉ s.run
  run_literal : holdsPlaceholder s.run.reverse = false
  run_closed : s.name = none → ¬EndsOpen s.run.reverse
  name_begun : ∀ name, s.name = some name → NameBeginning name.reverse

theorem sound_of_done {done : List Segment} (hc : allCanonical done = true)
    (ha : startsLiterally done = false) : Sound ⟨done, [], none⟩ := by
  refine ⟨hc, ha, by simp, rfl, ?_, by simp⟩
  rintro - ⟨before, name, -, h⟩
  simp at h

@[simp] theorem text_of_done (done : List Segment) :
    text ⟨done, [], none⟩ = renderAll done.reverse := by
  simp [text, openText]

theorem sound_empty : Sound empty := sound_of_done rfl rfl

theorem settle_name (s : Scan) : s.settle.name = none := by
  cases hn : s.name <;> simp [settle, hn]

theorem settle_done (s : Scan) : s.settle.done = s.done := by
  cases hn : s.name <;> simp [settle, hn]

theorem settle_run (s : Scan) : s.settle.run.reverse = s.run.reverse ++ s.openText := by
  cases hn : s.name <;> simp [settle, openText, hn]

theorem settle_text (s : Scan) : s.settle.text = s.text := by
  simp only [text, settle_done, settle_run]
  simp [openText, settle_name]

theorem openText_free {s : Scan} (h : s.Sound) :
    groupOpen ∉ s.openText ∧ groupClose ∉ s.openText ∧ placeholderClose ∉ s.openText := by
  cases hn : s.name with
  | none => simp [openText, hn]
  | some name =>
    have hb := (h.name_begun name hn).all_isNameChar
    simp only [openText, hn, List.mem_cons, not_or]
    refine ⟨⟨by decide, ?_⟩, ⟨by decide, ?_⟩, by decide, ?_⟩ <;>
      exact fun hm => absurd (hb _ hm) (by decide)

theorem Sound.settle_free {s : Scan} (h : s.Sound) :
    groupOpen ∉ s.settle.run ∧ groupClose ∉ s.settle.run := by
  obtain ⟨ho, hc, -⟩ := openText_free h
  constructor <;> rw [← List.mem_reverse, settle_run, List.mem_append, List.mem_reverse, not_or]
  · exact ⟨h.run_free.1, ho⟩
  · exact ⟨h.run_free.2, hc⟩

theorem Sound.settle_literal {s : Scan} (h : s.Sound) :
    holdsPlaceholder s.settle.run.reverse = false := by
  rw [settle_run]
  exact holdsPlaceholder_append h.run_literal (openText_free h).2.2

theorem closeRun_canonical {s : Scan} (hc : allCanonical s.done = true)
    (ha : startsLiterally s.done = false) (hf : groupOpen ∉ s.run ∧ groupClose ∉ s.run)
    (hl : holdsPlaceholder s.run.reverse = false) : allCanonical s.closeRun = true := by
  unfold closeRun
  split
  · exact hc
  · rename_i hr
    have hrun : isLiteralRun s.run.reverse = true := by
      simpa [isLiteralRun, hl] using ⟨⟨by simpa using hr, hf.1⟩, hf.2⟩
    simp [allCanonical, isCanonical, hrun, ha, hc]

theorem closeRun_text (s : Scan) :
    renderAll s.closeRun.reverse = renderAll s.done.reverse ++ s.run.reverse := by
  unfold closeRun
  split
  · rename_i hr
    simp [List.isEmpty_iff.mp hr]
  · simp [renderAll, render]

theorem Sound.finish_canonical {s : Scan} (h : s.Sound) : allCanonical s.finish = true :=
  closeRun_canonical (by rw [settle_done]; exact h.done_canonical)
    (by rw [settle_done]; exact h.done_apart) h.settle_free h.settle_literal

theorem finish_text (s : Scan) : renderAll s.finish.reverse = s.text := by
  rw [finish, closeRun_text, settle_done, settle_run, text]

theorem pushPlain_text {s : Scan} (hn : s.name = none) (c : Char) :
    (s.pushPlain c).text = s.text ++ [c] := by
  unfold pushPlain
  split
  · rename_i hc
    simp [text, openText, hn, beq_iff_eq.mp hc]
  · simp [text, openText, hn]

theorem pushPlain_sound {s : Scan} {c : Char} (hs : allCanonical s.done = true)
    (ha : startsLiterally s.done = false) (hf : groupOpen ∉ s.run ∧ groupClose ∉ s.run)
    (hl : holdsPlaceholder s.run.reverse = false) (ho : c ≠ groupOpen) (hc : c ≠ groupClose)
    (hp : c = placeholderClose → ∀ before name, isName name = true →
      s.run.reverse ≠ before ++ placeholderOpen :: name)
    (he : c ≠ placeholderOpen → ¬EndsOpen (s.run.reverse ++ [c])) : (s.pushPlain c).Sound := by
  unfold pushPlain
  split
  · exact ⟨hs, ha, hf, hl, by simp, by simp [NameBeginning]⟩
  · rename_i hne
    refine ⟨hs, ha, ?_, ?_, ?_, by simp⟩
    · simp only [List.mem_cons, not_or]
      exact ⟨⟨ho.symm, hf.1⟩, hc.symm, hf.2⟩
    · simpa using holdsPlaceholder_snoc hl hp
    · intro _
      simpa using he (by simpa using hne)

theorem push_text (s : Scan) (c : Char) : (s.push c).text = s.text ++ [c] := by
  unfold push
  split
  · rename_i hn
    exact pushPlain_text hn c
  · rename_i name hn
    split
    · simp [text, openText, hn]
    · split
      · rename_i hc
        simp only [Bool.and_eq_true, beq_iff_eq] at hc
        simp [text, openText, hn, closeRun_text, renderAll, render, hc.1]
      · rw [pushPlain_text s.settle_name, settle_text]

theorem push_sound {s : Scan} (h : s.Sound) {c : Char} (ho : c ≠ groupOpen)
    (hc : c ≠ groupClose) : (s.push c).Sound := by
  unfold push
  split
  · rename_i hn
    have hopen := h.run_closed hn
    refine pushPlain_sound h.done_canonical h.done_apart h.run_free h.run_literal ho hc ?_ ?_
    · rintro - before name hname he
      exact hopen ⟨before, name, Or.inr hname, he⟩
    · exact not_endsOpen_snoc hopen
  · rename_i name hn
    have hb := h.name_begun name hn
    split
    · rename_i hcont
      refine ⟨h.done_canonical, h.done_apart, h.run_free, h.run_literal, by simp, ?_⟩
      rintro _ ⟨⟩
      rw [List.reverse_cons, nameBeginning_snoc, List.reverse_reverse]
      exact ⟨hb, hcont⟩
    · rename_i hcont
      split
      · rename_i hclose
        simp only [Bool.and_eq_true, Bool.not_eq_true', List.isEmpty_eq_false_iff] at hclose
        have hname : isName name.reverse = true :=
          hb.resolve_left (by simpa using hclose.2)
        have hrun := closeRun_canonical h.done_canonical h.done_apart h.run_free h.run_literal
        apply sound_of_done
        · simp [allCanonical, isCanonical, startsLiterally, hname, hrun]
        · rfl
      · rename_i hclose
        have hopen := hb.open_notMem
        refine pushPlain_sound (by rw [settle_done]; exact h.done_canonical)
          (by rw [settle_done]; exact h.done_apart) h.settle_free h.settle_literal ho hc ?_ ?_
        · rintro rfl before other hother he
          simp only [settle_run, openText, hn] at he
          have hne : name.reverse = other := lastOpen_unique hopen
            (NameBeginning.open_notMem (Or.inr hother)) he
          subst hne
          cases name <;> simp [isName] at hother hclose
        · rintro hlt ⟨before, other, hother, he⟩
          simp only [settle_run, openText, hn, List.append_assoc, List.cons_append] at he
          have hne : name.reverse ++ [c] = other := lastOpen_unique
            (by simpa [hlt.symm] using hopen) hother.open_notMem he
          subst hne
          rw [nameBeginning_snoc, List.reverse_reverse] at hother
          exact hcont hother.2

def pending (s : Scan) : List Char := s.run.reverse ++ s.openText

theorem finish_of_pending {s : Scan} (h : s.pending = []) : s.finish = s.done := by
  have hr : s.settle.run = [] := List.reverse_eq_nil_iff.mp (s.settle_run.trans h)
  simp [finish, closeRun, hr, settle_done]

theorem finish_of_pending_ne {s : Scan} (h : s.pending ≠ []) :
    s.finish = .literal (String.ofList s.pending) :: s.done := by
  have hr : s.settle.run ≠ [] := by
    intro hr
    exact h (s.settle_run.symm.trans (by rw [hr, List.reverse_nil]))
  simp [finish, closeRun, hr, settle_done, settle_run, pending]

/-- A character with which the pending text holds no placeholder leaves all of it pending. -/
theorem push_pending {s : Scan} (hs : s.Sound) {c : Char}
    (h : holdsPlaceholder (s.pending ++ [c]) = false) :
    (s.push c).done = s.done ∧ (s.push c).pending = s.pending ++ [c] := by
  have hplain : ∀ t : Scan, t.name = none →
      (t.pushPlain c).done = t.done ∧ (t.pushPlain c).pending = t.pending ++ [c] := by
    intro t ht
    unfold pushPlain
    split
    · rename_i hc
      simp [pending, openText, ht, beq_iff_eq.mp hc]
    · simp [pending, openText, ht]
  have hsettle : s.settle.pending = s.pending := by
    simp [pending, settle_run, openText, settle_name]
  unfold push
  split
  · rename_i hn
    exact hplain s hn
  · rename_i name hn
    split
    · simp [pending, openText, hn]
    · split
      · rename_i hc
        simp only [Bool.and_eq_true, beq_iff_eq, Bool.not_eq_true',
          List.isEmpty_eq_false_iff] at hc
        have hname : isName name.reverse = true :=
          (hs.name_begun name hn).resolve_left (by simpa using hc.2)
        have hp := holdsPlaceholder_iff.mpr ⟨s.run.reverse, name.reverse, [], hname, rfl⟩
        simp [pending, openText, hn, hc.1, hp] at h
      · obtain ⟨hd, hp⟩ := hplain s.settle s.settle_name
        exact ⟨hd.trans s.settle_done, hp.trans (by rw [hsettle])⟩

theorem foldl_push_literal {s : Scan} (hs : s.Sound) {t : List Char}
    (ho : groupOpen ∉ t) (hc : groupClose ∉ t) (h : holdsPlaceholder (s.pending ++ t) = false) :
    (t.foldl push s).done = s.done ∧ (t.foldl push s).pending = s.pending ++ t := by
  induction t generalizing s with
  | nil => simp
  | cons c t ih =>
    rw [List.mem_cons, not_or] at ho hc
    have hsplit : s.pending ++ c :: t = (s.pending ++ [c]) ++ t := by simp
    obtain ⟨hd, hp⟩ := push_pending hs (holdsPlaceholder_left (hsplit ▸ h))
    have hs' := push_sound hs (Ne.symm ho.1) (Ne.symm hc.1)
    obtain ⟨hd', hp'⟩ := ih hs' ho.2 hc.2 (by rwa [hp, ← hsplit])
    exact ⟨hd'.trans hd, by rw [List.foldl_cons, hp', hp, hsplit]⟩

theorem push_open (s : Scan) : s.push placeholderOpen = ⟨s.done, s.settle.run, some []⟩ := by
  cases hn : s.name with
  | none => simp [push, pushPlain, settle, hn]
  | some name =>
    have hc : continuesName name placeholderOpen = false := by
      unfold continuesName
      split <;> rfl
    have hne : (placeholderOpen == placeholderClose) = false := by decide
    simp [push, pushPlain, settle, hn, hc, hne]

theorem foldl_push_name (done : List Segment) (run before name : List Char)
    (h : NameBeginning (before ++ name)) :
    name.foldl push ⟨done, run, some before.reverse⟩ =
      ⟨done, run, some (before ++ name).reverse⟩ := by
  induction name generalizing before with
  | nil => simp
  | cons c name ih =>
    have hsplit : before ++ c :: name = (before ++ [c]) ++ name := by simp
    have hb : NameBeginning (before ++ [c]) := nameBeginning_left (hsplit ▸ h)
    have hc := (nameBeginning_snoc.mp hb).2
    have hstep : push ⟨done, run, some before.reverse⟩ c =
        ⟨done, run, some (before ++ [c]).reverse⟩ := by
      simp [push, hc]
    rw [List.foldl_cons, hstep, ih (before ++ [c]) (hsplit ▸ h), hsplit]

theorem foldl_push_param (s : Scan) {name : List Char} (h : isName name = true) :
    (placeholderOpen :: (name ++ [placeholderClose])).foldl push s =
      ⟨.param (String.ofList name) :: s.finish, [], none⟩ := by
  have hn := foldl_push_name s.done s.settle.run [] name (Or.inr h)
  have hstop : continuesName name.reverse placeholderClose = false := by
    unfold continuesName
    split <;> rfl
  have hne : name ≠ [] := by
    rintro rfl
    simp [isName] at h
  have hfinish : closeRun ⟨s.done, s.settle.run, some name.reverse⟩ = s.finish := by
    simp [closeRun, finish, settle_done]
  rw [List.foldl_cons, push_open, List.foldl_append]
  simp only [List.reverse_nil, List.nil_append] at hn
  rw [hn]
  simp [push, hstop, hne, hfinish]

end Scan

end PathRouting.Pattern
