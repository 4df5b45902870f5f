import Mathlib.Data.List.Infix
import Mathlib.Data.List.TakeWhile
import PathRouting.Text.Blank
import PathRouting.Text.Split

/-!
# Texts that are split and trimmed

The parts of a text are told without the search for them: the first occurrence of a character has
no other one before it, no pair of a character begins earlier than where the text is split, and what
is left of a trimmed text neither begins nor ends with a character that is cut off.
-/
namespace PathRouting.Text

variable {c : Char} {s t before after part start left : List Char} {parts : List (List Char)}
  {p : Char → Bool}

/-! ## The first occurrence of a character -/

theorem splitFirst?_append (h : c ∉ before) :
    splitFirst? c (before ++ c :: after) = some (before, after) := by
  induction before with
  | nil => rw [List.nil_append, splitFirst?, if_pos rfl]
  | cons x before ih =>
    rw [List.mem_cons, not_or] at h
    rw [List.cons_append, splitFirst?, if_neg (Ne.symm h.1), ih h.2]
    rfl

theorem splitFirst?_of_notMem (h : c ∉ s) : splitFirst? c s = none := by
  induction s with
  | nil => rfl
  | cons x s ih =>
    rw [List.mem_cons, not_or] at h
    rw [splitFirst?, if_neg (Ne.symm h.1), ih h.2]
    rfl

theorem splitFirst?_eq_some_iff :
    splitFirst? c s = some (before, after) ↔ s = before ++ c :: after ∧ c ∉ before := by
  constructor
  · intro h
    by_cases hc : c ∈ s
    · obtain ⟨before', after', rfl, hbefore⟩ := List.eq_append_cons_of_mem hc
      rw [splitFirst?_append hbefore] at h
      obtain ⟨rfl, rfl⟩ := Prod.mk.inj (Option.some.inj h)
      exact ⟨rfl, hbefore⟩
    · rw [splitFirst?_of_notMem hc] at h
      cases h
  · rintro ⟨rfl, h⟩
    exact splitFirst?_append h

/-! ## A beginning -/

theorem dropStart_eq_some_iff : dropStart? start s = some left ↔ s = start ++ left := by
  induction start generalizing s with
  | nil => simp [dropStart?]
  | cons c start ih =>
    cases s with
    | nil => simp [dropStart?]
    | cons x s =>
      rw [dropStart?]
      by_cases h : x = c
      · simp [h, ih]
      · simp [h]

/-! ## Pairs of a character -/

/-- Parts that a text falls into at the pairs of a character, taken from the left. -/
structure FallsInto (c : Char) (s : List Char) (parts : List (List Char)) : Prop where
  ne_nil : parts ≠ []
  joined : [c, c].intercalate parts = s
  whole : ∀ part ∈ parts, ¬[c, c] <:+: part
  leftmost : ∀ part ∈ parts.dropLast, ¬[c] <:+ part

theorem splitPairs_ne_nil (c : Char) (s : List Char) : splitPairs c s ≠ [] := by
  fun_cases splitPairs c s <;> simp [*]

theorem splitPairs_of_not_infix (h : ¬[c, c] <:+: s) : splitPairs c s = [s] := by
  fun_induction splitPairs c s with
  | case1 => rfl
  | case2 => rfl
  | case3 x y rest hxy =>
    obtain ⟨rfl, rfl⟩ := hxy
    exact absurd (List.prefix_append [y, y] rest).isInfix h
  | case4 x y rest hxy hnil ih => exact absurd hnil (splitPairs_ne_nil _ _)
  | case5 x y rest hxy part parts hparts ih =>
    have hrest : ¬[c, c] <:+: y :: rest := fun hi => h (List.infix_cons hi)
    rw [ih hrest] at hparts
    obtain ⟨rfl, rfl⟩ := List.cons.inj hparts
    rfl

theorem splitPairs_append (h : ¬[c, c] <:+: before) (hlast : ¬[c] <:+ before) :
    splitPairs c (before ++ c :: c :: after) = before :: splitPairs c after := by
  induction before with
  | nil => rw [List.nil_append, splitPairs, if_pos ⟨rfl, rfl⟩]
  | cons x before ih =>
    have hrest : splitPairs c (before ++ c :: c :: after) = before :: splitPairs c after :=
      ih (fun hi => h (List.infix_cons hi)) fun hs => hlast (hs.trans (List.suffix_cons x before))
    cases before with
    | nil =>
      have hx : ¬(x = c ∧ c = c) := fun hx => hlast ⟨[], by rw [hx.1, List.nil_append]⟩
      rw [List.nil_append] at hrest
      rw [List.cons_append, List.nil_append, splitPairs, if_neg hx, hrest]
    | cons y before =>
      have hxy : ¬(x = c ∧ y = c) := by
        rintro ⟨rfl, rfl⟩
        exact h (List.prefix_append [y, y] before).isInfix
      rw [List.cons_append] at hrest
      rw [List.cons_append, List.cons_append, splitPairs, if_neg hxy, hrest]

theorem FallsInto.splitPairs_eq (h : FallsInto c s parts) : splitPairs c s = parts := by
  obtain ⟨hne, rfl, hwhole, hleft⟩ := h
  induction parts with
  | nil => exact absurd rfl hne
  | cons part parts ih =>
    obtain ⟨hpart, hparts⟩ := List.forall_mem_cons.mp hwhole
    cases parts with
    | nil =>
      rw [List.intercalate_singleton]
      exact splitPairs_of_not_infix hpart
    | cons next parts =>
      rw [List.dropLast_cons_cons] at hleft
      obtain ⟨hlast, hleft⟩ := List.forall_mem_cons.mp hleft
      rw [List.intercalate_cons_cons, List.append_assoc, List.cons_append, List.cons_append,
        List.nil_append, splitPairs_append hpart hlast, ih (List.cons_ne_nil _ _) hparts hleft]

theorem fallsInto_splitPairs (c : Char) (s : List Char) : FallsInto c s (splitPairs c s) := by
  fun_induction splitPairs c s with
  | case1 => exact ⟨by simp, rfl, by simp, by simp⟩
  | case2 x => exact ⟨by simp, rfl, by simp [List.infix_cons_iff], by simp⟩
  | case3 x y rest hxy ih =>
    obtain ⟨rfl, rfl⟩ := hxy
    obtain ⟨hne, hjoined, hwhole, hleft⟩ := ih
    obtain ⟨part, parts, hparts⟩ := List.exists_cons_of_ne_nil hne
    rw [hparts] at hjoined hwhole hleft ⊢
    refine ⟨List.cons_ne_nil _ _, ?_, List.forall_mem_cons.mpr ⟨by simp, hwhole⟩, ?_⟩
    · rw [List.intercalate_cons_cons, hjoined]
      rfl
    · rw [List.dropLast_cons_cons]
      exact List.forall_mem_cons.mpr ⟨by simp, hleft⟩
  | case4 x y rest hxy hnil ih => exact absurd hnil (splitPairs_ne_nil _ _)
  | case5 x y rest hxy part parts hparts ih =>
    rw [hparts] at ih
    obtain ⟨-, hjoined, hwhole, hleft⟩ := ih
    obtain ⟨hpart, hrest⟩ := List.forall_mem_cons.mp hwhole
    -- the first part begins like the rest of the text, or a pair stands there
    have hfirst : (part = [] ∧ y = c) ∨ ∃ tail, part = y :: tail := by
      cases part with
      | nil =>
        cases parts with
        | nil => cases hjoined
        | cons next parts => exact .inl ⟨rfl, (List.cons.inj hjoined).1.symm⟩
      | cons p tail =>
        refine .inr ⟨tail, ?_⟩
        cases parts <;> exact congrArg (· :: tail) (List.cons.inj hjoined).1
    refine ⟨List.cons_ne_nil _ _, ?_, List.forall_mem_cons.mpr ⟨?_, hrest⟩, ?_⟩
    · rw [← hjoined]
      cases parts <;> rfl
    · rcases hfirst with ⟨rfl, -⟩ | ⟨tail, rfl⟩
      · simp [List.infix_cons_iff]
      · rw [List.infix_cons_iff, not_or]
        refine ⟨?_, hpart⟩
        simp only [List.cons_prefix_cons, not_and]
        intro hx hy
        exact absurd ⟨hx.symm, hy.symm⟩ hxy
    · cases parts with
      | nil => simp
      | cons next parts =>
        rw [List.dropLast_cons_cons] at hleft ⊢
        obtain ⟨hlast, hleft⟩ := List.forall_mem_cons.mp hleft
        refine List.forall_mem_cons.mpr ⟨?_, hleft⟩
        rcases hfirst with ⟨rfl, hy⟩ | ⟨tail, rfl⟩
        · simp only [List.suffix_cons_iff, List.suffix_nil, List.cons_ne_self, or_false,
            List.cons.injEq, and_true]
          intro hx
          exact hxy ⟨hx.symm, hy⟩
        · rw [List.suffix_cons_iff, not_or]
          exact ⟨by simp, hlast⟩

theorem fallsInto_iff : FallsInto c s parts ↔ splitPairs c s = parts := by
  constructor
  · exact FallsInto.splitPairs_eq
  · rintro rfl
    exact fallsInto_splitPairs c s

/-! ## Trimming -/

/-- A text without the characters of a class at its two ends. -/
structure Trims (p : Char → Bool) (s t : List Char) : Prop where
  around : ∃ before after, s = before ++ (t ++ after) ∧ (∀ c ∈ before, p c = true) ∧
    ∀ c ∈ after, p c = true
  first : ∀ c ∈ t.head?, p c = false
  last : ∀ c ∈ t.getLast?, p c = false

theorem dropWhile_of_head (h : ∀ c ∈ s.head?, p c = false) : s.dropWhile p = s := by
  cases s with
  | nil => rfl
  | cons x s => exact List.dropWhile_cons_of_neg (by simp [h x rfl])

theorem Trims.eq (h : Trims p s t) : ((s.dropWhile p).reverse.dropWhile p).reverse = t := by
  obtain ⟨⟨before, after, rfl, hbefore, hafter⟩, hfirst, hlast⟩ := h
  rw [List.dropWhile_append_of_pos hbefore]
  cases t with
  | nil =>
    have hnil : after.dropWhile p = [] := List.dropWhile_eq_nil_iff.mpr hafter
    rw [List.nil_append, hnil]
    rfl
  | cons x t =>
    have hhead : ((x :: t) ++ after).dropWhile p = (x :: t) ++ after := dropWhile_of_head hfirst
    have hrest : (x :: t).reverse.dropWhile p = (x :: t).reverse :=
      dropWhile_of_head (by rwa [List.head?_reverse])
    have hend : ∀ c ∈ after.reverse, p c = true := fun c hc => hafter c (List.mem_reverse.mp hc)
    rw [hhead, List.reverse_append, List.dropWhile_append_of_pos hend, hrest, List.reverse_reverse]

theorem trims (p : Char → Bool) (s : List Char) :
    Trims p s ((s.dropWhile p).reverse.dropWhile p).reverse := by
  have hmiddle : s.dropWhile p = ((s.dropWhile p).reverse.dropWhile p).reverse ++
      ((s.dropWhile p).reverse.takeWhile p).reverse := by
    rw [← List.reverse_append, List.takeWhile_append_dropWhile, List.reverse_reverse]
  refine ⟨⟨s.takeWhile p, ((s.dropWhile p).reverse.takeWhile p).reverse, ?_, ?_, ?_⟩, ?_, ?_⟩
  · rw [← hmiddle, List.takeWhile_append_dropWhile]
  · exact fun c hc => List.mem_takeWhile_imp hc
  · exact fun c hc => List.mem_takeWhile_imp (List.mem_reverse.mp hc)
  · intro c hc
    have hhead : c ∈ (s.dropWhile p).head? := by
      rw [hmiddle, List.head?_append, Option.mem_def.mp hc]
      rfl
    have hnot := List.head?_dropWhile_not p s
    rw [Option.mem_def.mp hhead] at hnot
    exact hnot
  · intro c hc
    rw [List.getLast?_reverse] at hc
    have hnot := List.head?_dropWhile_not p (s.dropWhile p).reverse
    rw [Option.mem_def.mp hc] at hnot
    exact hnot

end PathRouting.Text
