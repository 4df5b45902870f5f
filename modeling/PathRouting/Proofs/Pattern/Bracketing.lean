import Mathlib.Data.List.Infix
import PathRouting.Pattern.Brackets
import PathRouting.Proofs.Pattern.Reading

/-!
# Brackets without a partner

The reader keeps a stack of open groups. The invariant says what the stack means for the
characters taken so far: balanced text, an open bracket, balanced text, and so on. From it a
text is refused at the leftmost bracket that has no partner, and for no other reason.
-/
namespace PathRouting.Pattern

/-- The brackets that a beginning closes have all been opened in it. -/
def NeverBelow (text : List Char) : Prop :=
  ∀ p, p <+: text → p.count groupClose ≤ p.count groupOpen

theorem groupOpen_ne_groupClose : groupOpen ≠ groupClose := by decide

theorem isPrefix_append_cases {s t p : List Char} (h : p <+: s ++ t) :
    p <+: s ∨ ∃ q, q <+: t ∧ p = s ++ q := by
  rcases List.prefix_or_prefix_of_prefix h (List.prefix_append s t) with h' | ⟨q, rfl⟩
  · exact .inl h'
  · exact .inr ⟨q, (List.prefix_append_right_inj s).mp h, rfl⟩

theorem NeverBelow.append {s t : List Char} (hs : NeverBelow s) (ht : NeverBelow t) :
    NeverBelow (s ++ t) := by
  intro p hp
  rcases isPrefix_append_cases hp with hp | ⟨q, hq, rfl⟩
  · exact hs p hp
  · have h₁ := hs s (List.prefix_refl s)
    have h₂ := ht q hq
    rw [List.count_append, List.count_append]
    omega

theorem NeverBelow.opened {t : List Char} (ht : NeverBelow t) : NeverBelow (groupOpen :: t) := by
  intro p hp
  rcases List.prefix_cons_iff.mp hp with rfl | ⟨q, rfl, hq⟩
  · simp
  · have h := ht q hq
    rw [List.count_cons_self, List.count_cons_of_ne groupOpen_ne_groupClose]
    omega

namespace Balanced

theorem append {s t : List Char} (hs : Balanced s) (ht : Balanced t) : Balanced (s ++ t) := by
  induction hs with
  | nil => exact ht
  | plain ho hc _ ih => exact .plain ho hc ih
  | group hi _ _ ih => simpa using Balanced.group hi ih

theorem count_eq {s : List Char} (h : Balanced s) : s.count groupClose = s.count groupOpen := by
  induction h with
  | nil => rfl
  | plain ho hc _ ih => rwa [List.count_cons_of_ne ho, List.count_cons_of_ne hc]
  | group _ _ ihi ihr =>
    simp only [List.count_cons_self, List.count_append,
      List.count_cons_of_ne groupOpen_ne_groupClose,
      List.count_cons_of_ne groupOpen_ne_groupClose.symm]
    omega

theorem neverBelow {s : List Char} (h : Balanced s) : NeverBelow s := by
  induction h with
  | nil =>
    intro p hp
    simp [List.prefix_nil.mp hp]
  | plain ho hc _ ih =>
    intro p hp
    rcases List.prefix_cons_iff.mp hp with rfl | ⟨q, rfl, hq⟩
    · simp
    · rw [List.count_cons_of_ne ho, List.count_cons_of_ne hc]
      exact ih q hq
  | @group inside rest hi _ ihi ihr =>
    -- the closing bracket takes back the one that stands in front
    intro p hp
    rcases List.prefix_cons_iff.mp hp with rfl | ⟨q, rfl, hq⟩
    · simp
    · rw [List.count_cons_self, List.count_cons_of_ne groupOpen_ne_groupClose]
      rcases isPrefix_append_cases hq with hq | ⟨r, hr, rfl⟩
      · have h := ihi q hq
        omega
      · rcases List.prefix_cons_iff.mp hr with rfl | ⟨u, rfl, hu⟩
        · simp [hi.count_eq]
        · have h := ihr u hu
          have heq := hi.count_eq
          rw [List.count_append, List.count_append, List.count_cons_self,
            List.count_cons_of_ne groupOpen_ne_groupClose.symm]
          omega

/-- Inside a balanced text every bracket has a partner, whatever stands around the text. -/
theorem not_unmatched {s : List Char} (h : Balanced s) (before after : List Char) {q : Nat}
    (hlow : before.length ≤ q) (hhigh : q < before.length + s.length) :
    ¬Unmatched (before ++ s ++ after) q := by
  induction h generalizing before after with
  | nil => exact absurd hhigh (by simpa using hlow)
  | @plain c rest ho hc _ ih =>
    by_cases hq : q = before.length
    · have hat : (before ++ c :: rest ++ after)[q]? = some c := by simp [hq]
      rintro (⟨hb, -⟩ | ⟨hb, -⟩)
      · exact ho (Option.some.inj (hat.symm.trans hb))
      · exact hc (Option.some.inj (hat.symm.trans hb))
    · rw [List.length_cons] at hhigh
      have h := ih (before ++ [c]) after (by simp; omega) (by simp; omega)
      simpa using h
  | @group inside rest hi _ ihi ihr =>
    have hp : Partners (before ++ (groupOpen :: (inside ++ groupClose :: rest)) ++ after)
        before.length (before.length + 1 + inside.length) :=
      ⟨before, inside, rest ++ after, by simp, hi, rfl, rfl⟩
    simp only [List.length_cons, List.length_append] at hhigh
    rcases Nat.lt_trichotomy q (before.length + 1 + inside.length) with hq | rfl | hq
    · by_cases hq' : q = before.length
      · subst hq'
        rintro (⟨-, hn⟩ | ⟨hb, -⟩)
        · exact hn _ hp
        · simp [groupOpen_ne_groupClose] at hb
      · have h := ihi (before ++ [groupOpen]) (groupClose :: (rest ++ after)) (by simp; omega)
          (by simp; omega)
        simpa using h
    · have hat : (before ++ (groupOpen :: (inside ++ groupClose :: rest)) ++ after)[
          before.length + 1 + inside.length]? = some groupClose := by
        rw [List.append_assoc, List.getElem?_append_right (by omega),
          show before.length + 1 + inside.length - before.length = inside.length + 1 by omega]
        simp
      rintro (⟨hb, -⟩ | ⟨-, hn⟩)
      · exact groupOpen_ne_groupClose (Option.some.inj (hb.symm.trans hat))
      · exact hn _ hp
    · have h := ihr (before ++ groupOpen :: (inside ++ [groupClose])) after (by simp; omega)
          (by simp; omega)
      simpa using h

end Balanced

/-- Behind balanced text a closing bracket has no partner, and nothing before it lacks one. -/
theorem firstUnmatched_closing {before : List Char} (h : Balanced before) (after : List Char) :
    FirstUnmatched (before ++ groupClose :: after) before.length := by
  refine ⟨.closing (by simp) ?_, ?_⟩
  · rintro i ⟨b, inside, a, htext, hi, -, hplace⟩
    have hsplit : before = b ++ groupOpen :: inside := by
      have htext' : before ++ groupClose :: after =
          (b ++ groupOpen :: inside) ++ groupClose :: a := by rw [htext]; simp
      exact (List.append_inj htext' (by simp [hplace]; omega)).1
    -- the partner would leave a bracket open in the balanced text
    have hbelow := h.neverBelow b ⟨groupOpen :: inside, hsplit.symm⟩
    have hcount := h.count_eq
    rw [hsplit] at hcount
    simp only [List.count_append, List.count_cons_self,
      List.count_cons_of_ne groupOpen_ne_groupClose, hi.count_eq] at hcount
    omega
  · intro earlier hlt
    have h := h.not_unmatched [] (groupClose :: after) (Nat.zero_le earlier) (by simpa using hlt)
    simpa using h

/-- Behind balanced text an opening bracket has no partner if the brackets behind it never close
more than they open, and nothing before it lacks one. -/
theorem firstUnmatched_opening {before after : List Char} (h : Balanced before)
    (ha : NeverBelow after) : FirstUnmatched (before ++ groupOpen :: after) before.length := by
  refine ⟨.opening (by simp) ?_, ?_⟩
  · rintro j ⟨b, inside, a, htext, hi, hplace, -⟩
    obtain ⟨rfl, htail⟩ := List.append_inj htext hplace
    obtain ⟨-, rfl⟩ := List.cons.inj htail
    have hbelow := ha (inside ++ [groupClose]) ⟨a, by simp⟩
    simp only [List.count_append, hi.count_eq, List.count_singleton_self,
      List.count_cons_of_ne groupOpen_ne_groupClose.symm, List.count_nil] at hbelow
    omega
  · intro earlier hlt
    have h := h.not_unmatched [] (groupOpen :: after) (Nat.zero_le earlier) (by simpa using hlt)
    simpa using h

/-- A text that leaves brackets open at these places, the innermost first. -/
inductive Opened : List Char → List Nat → Prop where
  | balanced {s : List Char} : Balanced s → Opened s []
  | opened {s t : List Char} {places : List Nat} : Opened s places → Balanced t →
      Opened (s ++ groupOpen :: t) (s.length :: places)

namespace Opened

theorem balanced_of_nil {s : List Char} (h : Opened s []) : Balanced s := by
  cases h with
  | balanced hs => exact hs

theorem append {s t : List Char} {places : List Nat} (h : Opened s places) (ht : Balanced t) :
    Opened (s ++ t) places := by
  cases h with
  | balanced hs => exact .balanced (hs.append ht)
  | opened hs hu => simpa using Opened.opened hs (hu.append ht)

theorem outermost {s : List Char} {places : List Nat} {p : Nat} (h : Opened s places)
    (hp : places.getLast? = some p) : ∃ before after, s = before ++ groupOpen :: after ∧
      Balanced before ∧ NeverBelow after ∧ p = before.length := by
  induction h with
  | balanced _ => simp at hp
  | @opened s t places hs ht ih =>
    cases hs with
    | balanced hs =>
      simp only [List.getLast?_singleton, Option.some.injEq] at hp
      exact ⟨s, t, rfl, hs, ht.neverBelow, hp.symm⟩
    | @opened s' t' places hs' ht' =>
      obtain ⟨before, after, htext, hb, ha, hlen⟩ := ih (by simpa using hp)
      refine ⟨before, after ++ groupOpen :: t, ?_, hb, ha.append ht.neverBelow.opened, hlen⟩
      simp [htext]

end Opened

namespace Reading

/-- The stack of a reading says which brackets of the characters taken are open. -/
structure Stands (r : Reading) (taken : List Char) : Prop where
  opened : Opened taken (r.frames.map Frame.openedAt)
  position : r.position = taken.length

theorem stands_start : start.Stands [] := ⟨.balanced .nil, rfl⟩

theorem closeGroup_stands {r r' : Reading} {taken : List Char} (h : r.Stands taken)
    (hc : r.closeGroup? = some r') : r'.Stands (taken ++ [groupClose]) := by
  obtain ⟨frames, inner, position⟩ := r
  cases frames with
  | nil => cases hc
  | cons frame frames =>
    obtain rfl := Option.some.inj hc
    obtain ⟨hopened, hposition⟩ := h
    generalize hplaces : (frame :: frames).map Frame.openedAt = places at hopened
    cases hopened with
    | balanced _ => cases hplaces
    | @opened s t places hs ht =>
      obtain ⟨-, rfl⟩ := List.cons.inj hplaces
      constructor
      · have h := hs.append (Balanced.group ht .nil)
        simpa using h
      · simp only [List.length_append, List.length_cons, List.length_nil] at hposition ⊢
        omega

/-- What one character does to the open brackets. -/
theorem push_stands {r r' : Reading} {taken : List Char} {c : Char} (h : r.Stands taken)
    (hp : r.push? c = some r') : r'.Stands (taken ++ [c]) := by
  unfold push? at hp
  split at hp
  · rename_i hc
    obtain rfl := Option.some.inj hp
    obtain rfl := beq_iff_eq.mp hc
    constructor
    · have ho := Opened.opened h.opened .nil
      rwa [← h.position] at ho
    · simp [openGroup, h.position]
  · split at hp
    · rename_i hc
      obtain rfl := beq_iff_eq.mp hc
      exact closeGroup_stands h hp
    · rename_i ho hc
      obtain rfl := Option.some.inj hp
      constructor
      · exact h.opened.append (.plain (by simpa using ho) (by simpa using hc) .nil)
      · simp [h.position]

theorem push_refused {r : Reading} {c : Char} (hp : r.push? c = none) :
    c = groupClose ∧ r.frames = [] := by
  unfold push? at hp
  split at hp
  · cases hp
  · split at hp
    · rename_i hc
      refine ⟨beq_iff_eq.mp hc, ?_⟩
      unfold closeGroup? at hp
      split at hp
      · assumption
      · cases hp
    · cases hp

theorem pushAll_stands {cs : List Char} {r r' : Reading} {taken : List Char}
    (h : r.Stands taken) (hp : r.pushAll cs = .ok r') : r'.Stands (taken ++ cs) := by
  induction cs generalizing r taken with
  | nil =>
    obtain rfl := Except.ok.inj hp
    simpa using h
  | cons c cs ih =>
    simp only [pushAll] at hp
    split at hp
    · rename_i r₁ hr
      simpa using ih (push_stands h hr) hp
    · cases hp

theorem pushAll_refused {cs : List Char} {r : Reading} {taken : List Char} {p : Nat}
    (h : r.Stands taken) (hp : r.pushAll cs = .error p) :
    ∃ before after, taken ++ cs = before ++ groupClose :: after ∧ Balanced before ∧
      p = before.length := by
  induction cs generalizing r taken with
  | nil => cases hp
  | cons c cs ih =>
    simp only [pushAll] at hp
    split at hp
    · rename_i r₁ hr
      simpa using ih (push_stands h hr) hp
    · rename_i hr
      obtain ⟨rfl, hframes⟩ := push_refused hr
      have ho := h.opened
      rw [hframes] at ho
      have hb := ho.balanced_of_nil
      exact ⟨taken, cs, rfl, hb, (Except.error.inj hp).symm.trans h.position⟩

/-- The text of a group is read as it is read by itself, whatever stands before the group. -/
theorem pushAll_group {file : Option String} {before inside : List Char} {body : Pattern}
    {r : Reading} (hr : start.pushAll before = .ok r)
    (hbody : parse file (String.ofList inside) = .ok body) :
    ∃ r', r.pushAll (groupOpen :: (inside ++ [groupClose])) = .ok r' ∧ r'.frames = r.frames ∧
      r'.inner.finish = Segment.group body.parts :: r.inner.finish := by
  obtain ⟨-, -, htext, hc⟩ := parse_sound hbody
  obtain ⟨hs, -⟩ := pushAll_sound sound_start hr
  have hreads := reads_canonical body.parts (Segment.canonical_iff.mp hc) r.openGroup
    (openGroup_sound hs) fun _ => rfl
  obtain ⟨r', hr', hframes, hinner, -⟩ := reads_group hreads
  refine ⟨r', ?_, hframes, hinner⟩
  rw [String.toList_ofList] at htext
  rw [← htext]
  exact hr'

end Reading

theorem balanced_of_parse {file : Option String} {source : String} {p : Pattern}
    (h : parse file source = .ok p) : Balanced source.toList := by
  unfold parse readParts at h
  split at h
  · cases h
  · rename_i r hr
    split at h
    · cases h
    · rename_i ho
      have hs := (Reading.pushAll_stands Reading.stands_start hr).opened
      have hf : r.frames = [] := by simpa [Reading.outermost?] using ho
      rw [hf] at hs
      exact hs.balanced_of_nil

/-- A text is refused at its leftmost bracket without a partner. -/
theorem parse_refused {file : Option String} {source : String} {e : Error}
    (h : parse file source = .error e) : ∃ p, FirstUnmatched source.toList p ∧
      (source.toList[p]? = some groupClose ∧ e = .unbalanced p file ∨
        source.toList[p]? = some groupOpen ∧ e = .unclosed p file) := by
  unfold parse readParts at h
  split at h
  · rename_i p hp
    obtain ⟨before, after, htext, hb, rfl⟩ := Reading.pushAll_refused Reading.stands_start hp
    rw [List.nil_append] at htext
    rw [htext]
    exact ⟨_, firstUnmatched_closing hb after, .inl ⟨by simp, (Except.error.inj h).symm⟩⟩
  · rename_i r hr
    split at h
    · rename_i p ho
      have hs := (Reading.pushAll_stands Reading.stands_start hr).opened
      rw [List.nil_append] at hs
      obtain ⟨before, after, htext, hb, ha, rfl⟩ :=
        hs.outermost (by rw [List.getLast?_map]; exact ho)
      rw [htext]
      exact ⟨_, firstUnmatched_opening hb ha, .inr ⟨by simp, (Except.error.inj h).symm⟩⟩
    · cases h

theorem Unmatched.lt_length {text : List Char} {p : Nat} (h : Unmatched text p) :
    p < text.length := by
  cases h with
  | opening h _ => exact (List.getElem?_eq_some_iff.mp h).1
  | closing h _ => exact (List.getElem?_eq_some_iff.mp h).1

theorem Balanced.all_matched {text : List Char} (h : Balanced text) (p : Nat) :
    ¬Unmatched text p := by
  intro hu
  have h := h.not_unmatched [] [] (Nat.zero_le p) (by simpa using hu.lt_length)
  simp only [List.nil_append, List.append_nil] at h
  exact h hu

/-- The pattern texts that are accepted are those with balanced brackets. -/
theorem parse_isOk_iff {file : Option String} {source : String} :
    (∃ p, parse file source = .ok p) ↔ Balanced source.toList := by
  constructor
  · rintro ⟨p, h⟩
    exact balanced_of_parse h
  · intro hb
    cases h : parse file source with
    | ok p => exact ⟨p, rfl⟩
    | error e =>
      obtain ⟨p, hp, -⟩ := parse_refused h
      exact absurd hp.unmatched (hb.all_matched p)

/-- A pattern text is refused exactly if a bracket has no partner, and the diagnostic then points
at the leftmost one. The text inside a group is never refused: it is read as it is read by
itself, whatever comes before and behind the group. -/
theorem parse_error_iff_unmatched (file : Option String) (source : String) :
    ((∃ e, parse file source = .error e) ↔ ∃ p, Unmatched source.toList p) ∧
    (∀ e, parse file source = .error e → ∃ p : Nat, FirstUnmatched source.toList p ∧
      e.diagnostic.kind = .form ∧ e.diagnostic.span = some ⟨p, p + 1, 1, p + 1⟩ ∧
      (source.toList[p]? = some ')' ∧
          e.diagnostic.message = "Unbalanced ')' outside of an optional group" ∨
        source.toList[p]? = some '(' ∧ e.diagnostic.message = "Unclosed '(' optional group")) ∧
    (∀ before inside, Balanced inside → ∃ body, parse file (String.ofList inside) = .ok body ∧
      ∀ r, Reading.start.pushAll before = .ok r →
        ∃ r', r.pushAll ('(' :: (inside ++ [')'])) = .ok r' ∧ r'.frames = r.frames ∧
          r'.inner.finish = Segment.group body.parts :: r.inner.finish) := by
  refine ⟨⟨?_, ?_⟩, ?_, ?_⟩
  · rintro ⟨e, he⟩
    obtain ⟨p, hp, -⟩ := parse_refused he
    exact ⟨p, hp.unmatched⟩
  · rintro ⟨p, hp⟩
    cases h : parse file source with
    | error e => exact ⟨e, rfl⟩
    | ok q => exact absurd hp ((balanced_of_parse h).all_matched p)
  · intro e he
    obtain ⟨p, hp, ⟨hc, rfl⟩ | ⟨ho, rfl⟩⟩ := parse_refused he
    · exact ⟨p, hp, rfl, rfl, .inl ⟨hc, rfl⟩⟩
    · exact ⟨p, hp, rfl, rfl, .inr ⟨ho, rfl⟩⟩
  · intro before inside hi
    have hok : ∃ body, parse file (String.ofList inside) = .ok body := by
      rw [parse_isOk_iff, String.toList_ofList]
      exact hi
    obtain ⟨body, hbody⟩ := hok
    exact ⟨body, hbody, fun r hr => Reading.pushAll_group hr hbody⟩

end PathRouting.Pattern
