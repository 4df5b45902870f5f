import Mathlib.Tactic.FinCases
import PathRouting.Proofs.Regex.Carrying
import PathRouting.Regex.LiteralText

/-!
# Reading on

What some tokens append to an assembly, whatever stands behind them: a literal text, a bracket
that is opened and closed again, alternatives.
-/
namespace PathRouting.Regex

/-! ## Tokens -/

theorem Token.ofChars_cons {c : Char} (hc : c ≠ '\\') (rest : List Char) :
    ofChars (c :: rest) = (.plain c :: (ofChars rest).1, (ofChars rest).2) := by
  rw [ofChars]
  · intro h
    exact absurd h hc
  · intro d rest' h
    exact absurd h hc

theorem Token.ofChars_append {xs : List Char} (h : (ofChars xs).2 = false) (ys : List Char) :
    ofChars (xs ++ ys) = ((ofChars xs).1 ++ (ofChars ys).1, (ofChars ys).2) := by
  induction xs using ofChars.induct with
  | case1 => rfl
  | case2 => cases h
  | case3 c rest tokens dangling hr ih =>
    have hd : (ofChars rest).2 = false := h
    simp only [List.cons_append, ofChars, ih hd]
  | case4 c rest hne hne' tokens dangling hr ih =>
    have hc : c ≠ '\\' := by
      rintro rfl
      cases rest with
      | nil => exact hne rfl rfl
      | cons d rest => exact hne' d rest rfl rfl
    rw [ofChars_cons hc] at h
    rw [List.cons_append, ofChars_cons hc, ofChars_cons hc, ih h]
    rfl

theorem isSpecial_backslash : isSpecial '\\' = true := by decide

theorem escapeChar_tokens (c : Char) : Token.ofChars (escapeChar c) =
    ([if isSpecial c then .escaped c else .plain c], false) := by
  unfold escapeChar
  cases hc : isSpecial c with
  | true => rfl
  | false =>
    have hne : c ≠ '\\' := by
      rintro rfl
      cases isSpecial_backslash.symm.trans hc
    exact Token.ofChars_cons hne []

theorem escapeText_cons_tokens (c : Char) (text : List Char) :
    Token.ofChars (escapeText (c :: text)) =
      ((if isSpecial c then .escaped c else .plain c) :: (Token.ofChars (escapeText text)).1,
        (Token.ofChars (escapeText text)).2) := by
  rw [escapeText, List.flatMap_cons, Token.ofChars_append (by rw [escapeChar_tokens]),
    escapeChar_tokens]
  rfl

theorem escapeText_whole (text : List Char) : (Token.ofChars (escapeText text)).2 = false := by
  induction text with
  | nil => rfl
  | cons c text ih =>
    rw [escapeText_cons_tokens]
    exact ih

/-! ## Single lexemes -/

theorem readLexeme_escapeChar [CharacterNames] (c : Char) (ts : List Token) :
    readLexeme false (if isSpecial c then .escaped c else .plain c) ts =
      .ok (.node (.literal c.toNat), ts) := by
  cases hc : isSpecial c with
  | true =>
    have hm : c ∈ specialCharacters := by simpa [isSpecial] using hc
    fin_cases hm <;> rfl
  | false =>
    have hm : c ∉ specialCharacters := by simpa [isSpecial] using hc
    simp only [specialCharacters, List.mem_cons, not_or] at hm
    simp [readLexeme, readPlain, hm]

namespace Assembly

def appendAll (a : Assembly) (xs : List Node) : Assembly :=
  { a with level := { a.level with items := xs.reverse ++ a.level.items } }

theorem append_appendAll (a : Assembly) (x : Node) (xs : List Node) :
    (a.append x).appendAll xs = a.appendAll (x :: xs) := by
  simp [append, appendAll]

variable {a : Assembly}

section

variable [CharacterNames]

theorem pushAll_skip (a : Assembly) (before ts : List Token) :
    pushAll before.length a (before ++ ts) = pushAll 0 a ts := by
  induction before with
  | nil => rfl
  | cons t before ih => exact ih

theorem pushAll_step {a b : Assembly} {t : Token} {lexeme : Lexeme} (before rest : List Token)
    (hl : readLexeme a.level.verbose t (before ++ rest) = .ok (lexeme, rest))
    (hp : a.push lexeme (Token.extent (t :: (before ++ rest))) rest = .ok b) :
    pushAll 0 a (t :: (before ++ rest)) = pushAll 0 b rest := by
  rw [pushAll, hl]
  dsimp only
  rw [hp]
  dsimp only
  rw [List.length_append, Nat.add_sub_cancel]
  exact pushAll_skip b before rest

theorem pushAll_literal (hv : a.level.verbose = false) (text : List Char) (tail : List Token) :
    a.pushAll 0 ((Token.ofChars (escapeText text)).1 ++ tail) =
      (a.appendAll (text.map fun c => .literal c.toNat)).pushAll 0 tail := by
  induction text generalizing a with
  | nil => rfl
  | cons c text ih =>
    have hstep : a.pushAll 0 ((Token.ofChars (escapeText (c :: text))).1 ++ tail) =
        (a.append (.literal c.toNat)).pushAll 0 ((Token.ofChars (escapeText text)).1 ++ tail) := by
      rw [escapeText_cons_tokens]
      exact pushAll_step [] _ (by rw [hv]; exact readLexeme_escapeChar c _) rfl
    rw [hstep, ih (a := a.append (.literal c.toNat)) hv, append_appendAll]
    rfl

/-! ## Brackets -/

theorem readLexeme_close (verbose : Bool) (ts : List Token) :
    readLexeme verbose (.plain ')') ts = .ok (.close, ts) := by
  cases verbose <;> rfl

end

/-- What an assembly has become when expressions were appended to its current alternative.
Groups have been asked about only if that is expected. -/
structure Extends (asks : Prop) (xs : List Node) (a b : Assembly) : Prop where
  frames : b.frames = a.frames
  level : b.level = { a.level with items := xs.reverse ++ a.level.items }
  flags : b.flags = a.flags
  asked : asks ∨ b.asked = a.asked

namespace Extends

variable {asks : Prop} {xs ys : List Node} {a b c : Assembly}

theorem appendAll (asks : Prop) (a : Assembly) (xs : List Node) :
    Extends asks xs a (a.appendAll xs) :=
  ⟨rfl, rfl, rfl, .inr rfl⟩

theorem trans (h : Extends asks xs a b) (k : Extends asks ys b c) :
    Extends asks (xs ++ ys) a c := by
  refine ⟨k.frames.trans h.frames, ?_, k.flags.trans h.flags, ?_⟩
  · rw [k.level, h.level]
    simp
  · rcases h.asked with hk | hk
    · exact .inl hk
    · rcases k.asked with hl | hl
      · exact .inl hl
      · exact .inr (hl.trans hk)

theorem mono {asks' : Prop} (h : Extends asks xs a b) (hm : asks → asks') :
    Extends asks' xs a b :=
  ⟨h.frames, h.level, h.flags, h.asked.imp_left hm⟩

theorem verbose (h : Extends asks xs a b) : b.level.verbose = a.level.verbose := by
  rw [h.level]

theorem node (h : Extends asks xs a b) (he : a.level = .empty false) :
    b.level.node = .ofList xs := by
  rw [h.level, he]
  simp [Level.node, Level.current, Level.empty, Node.ofAlternatives]

end Extends

/-- A closing bracket closes the innermost bracket, and what was opened has become one
expression. -/
theorem Extends.close [CharacterNames] {asks : Prop} {a b : Assembly} {bracket : Bracket}
    {openedAt : Nat}
    (hf : b.frames = ⟨bracket, openedAt, a.level⟩ :: a.frames) (hflags : b.flags = a.flags)
    (hasked : asks ∨ b.asked = a.asked) (tail : List Token) :
    ∃ c, b.pushAll 0 (.plain ')' :: tail) = c.pushAll 0 tail ∧
      Extends asks [bracket.close b.level] a c ∧ c.groups.length = b.groups.length := by
  have hclose : ∃ c, b.pushClose (Token.extent (.plain ')' :: tail)) = .ok c ∧
      Extends asks [bracket.close b.level] a c ∧ c.groups.length = b.groups.length := by
    unfold pushClose
    rw [hf]
    cases bracket with
    | capture number => exact ⟨_, rfl, ⟨rfl, rfl, hflags, hasked⟩, by simp [leave]⟩
    | conditional number yes => cases yes <;> exact ⟨_, rfl, ⟨rfl, rfl, hflags, hasked⟩, rfl⟩
    | _ => exact ⟨_, rfl, ⟨rfl, rfl, hflags, hasked⟩, rfl⟩
  obtain ⟨c, hc, h⟩ := hclose
  exact ⟨c, pushAll_step [] tail (readLexeme_close _ _) hc, h⟩

/-- The assembly behind a bracket that captures, where the bracket was opened. -/
def captured (a : Assembly) (here : Nat) : Assembly :=
  { a with groups := a.groups ++ [none] }.enter (.capture (a.groups.length + 1)) here
    a.level.verbose

theorem within_captured (hv : a.level.verbose = false) (here : Nat) :
    Within (a.captured here) start (a.captured here) := by
  refine ⟨?_, ⟨[], rfl, .nil⟩, ?_, rfl, rfl, rfl⟩
  · simp only [captured, enter, hv]
    exact .empty _ false
  · simp [start]

theorem carries_captured (hv : a.level.verbose = false) (here : Nat) :
    Carries (a.captured here) start (a.captured here) := by
  refine ⟨?_, ⟨[], rfl, .nil⟩⟩
  simp only [captured, enter, hv]
  rfl

variable [CharacterNames]

theorem pushAll_capture {ts : List Token} (hq : ts.head? ≠ some (.plain '?')) :
    ∃ here, a.pushAll 0 (.plain '(' :: ts) = (a.captured here).pushAll 0 ts := by
  have hr : readPlain '(' ts = .ok (.opening (.capture none), ts) := by
    rcases ts with _ | ⟨t, ts⟩
    · rfl
    · have ht : t ≠ .plain '?' := by
        rintro rfl
        exact hq rfl
      simp [readPlain, ht]
  have hl : readLexeme a.level.verbose (.plain '(') ts = .ok (.opening (.capture none), ts) := by
    cases a.level.verbose <;> exact hr
  exact ⟨Token.extent (.plain '(' :: ts), pushAll_step [] ts hl rfl⟩

theorem pushAll_plain (a : Assembly) (ts : List Token) : ∃ here,
    a.pushAll 0 (.plain '(' :: .plain '?' :: .plain ':' :: ts) =
      (a.enter .plain here a.level.verbose).pushAll 0 ts := by
  have hl : readLexeme a.level.verbose (.plain '(') (.plain '?' :: .plain ':' :: ts) =
      .ok (.opening .plain, ts) := by
    cases a.level.verbose <;> rfl
  exact ⟨_, pushAll_step [.plain '?', .plain ':'] ts hl rfl⟩

/-! ## Conditions -/

theorem head_ne_question {source : List Char} {e : Expression} (h : ofChars source = .ok e)
    (tail : List Token) :
    ((Token.ofChars source).1 ++ .plain ')' :: tail).head? ≠ some (.plain '?') := by
  obtain ⟨-, a, ha, -, -⟩ := ofChars_ok h
  cases hts : (Token.ofChars source).1 with
  | nil => simp
  | cons t ts =>
    intro ht
    obtain rfl : t = .plain '?' := by simpa using ht
    rw [hts, pushAll] at ha
    cases hl : readLexeme start.level.verbose (.plain '?') ts with
    | error e =>
      rw [hl] at ha
      cases ha
    | ok p =>
      obtain ⟨lexeme, rest⟩ := p
      have hlex : lexeme = .quantifier (readStyle ts).1 0 (some 1) := by
        have hq : quantifier 0 (some 1) ts = .ok (lexeme, rest) := hl
        exact (Prod.mk.inj (Except.ok.inj hq)).1.symm
      rw [hl, hlex] at ha
      cases ha

/-- An expression that stands on its own is read in the same way between the brackets of a
group, behind any groups that there are. -/
theorem pushAll_embedded {source : List Char} {e : Expression} (h : ofChars source = .ok e)
    (hv : a.level.verbose = false) {tail : List Token} {result : Except Failure Assembly}
    (hr : Unmistaken result)
    (hc : a.pushAll 0 (.plain '(' :: ((Token.ofChars source).1 ++ .plain ')' :: tail)) = result) :
    ∃ b body, e.root.Shifted (a.groups.length + 1) body ∧
      (refersByName source = true → body = e.root.carried (a.groups.length + 1)) ∧
      Extends True [.group (some (a.groups.length + 1)) body] a b ∧
      b.groups.length = a.groups.length + 1 + e.groups ∧ b.pushAll 0 tail = result := by
  obtain ⟨here, hopen⟩ := a.pushAll_capture (head_ne_question h tail)
  rw [hopen] at hc
  obtain ⟨-, s, hs, hf, rfl⟩ := ofChars_ok h
  have hg : (a.captured here).groups.length = a.groups.length + 1 := by
    simp [captured, enter]
  obtain ⟨i, hi, hcarried, hrest⟩ := (within_captured hv here).pushAll
    (by simp [captured, enter]) (by simp [captured, enter, Bracket.isConditional]) tail
    (Nat.zero_le _) hs hf hr hc
  have hif : i.frames = ⟨.capture (a.groups.length + 1), here, a.level⟩ :: a.frames :=
    hi.frames_nil hf
  obtain ⟨b, hb, hx, hl⟩ := Extends.close (a := a) hif hi.flags (Or.inl True.intro) tail
  have hn := hi.level.node
  have hig := hi.groups
  rw [hg] at hn hig
  refine ⟨b, i.level.node, hn, ?_, hx, ?_, hb ▸ hrest⟩
  · intro hname
    rw [(hcarried hname (carries_captured hv here)).level, Level.node_carried, hg]
  · dsimp only
    omega

end Assembly

end PathRouting.Regex
