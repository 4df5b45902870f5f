import PathRouting.Regex.Lexeme
import Mathlib.Tactic.SplitIfs

/-!
# Lexemes end before a closing bracket

A lexeme that can be read from a text is read in the same way if a closing bracket and more
text follow. Only a comment that runs to the end of the text takes in what follows.
-/
namespace PathRouting.Regex

open PathRouting.Text

/-- A reader that, where it succeeds, leaves a closing bracket and what follows it alone. -/
def Local {α : Type} (read : List Token → Except Failure (α × List Token)) : Prop :=
  ∀ ts x rest, read ts = .ok (x, rest) → ∀ tail,
    read (ts ++ .plain ')' :: tail) = .ok (x, rest ++ .plain ')' :: tail)

theorem Local.bind {α β : Type} {read : List Token → Except Failure (α × List Token)}
    {next : α → List Token → Except Failure (β × List Token)} (hr : Local read)
    (hn : ∀ x, Local (next x)) : Local fun ts => read ts >>= fun p => next p.1 p.2 := by
  intro ts y rest h tail
  obtain ⟨⟨x, mid⟩, hx, h⟩ := bind_eq_ok.mp h
  exact bind_eq_ok.mpr ⟨_, hr ts x mid hx tail, hn x mid y rest h tail⟩

theorem local_ok {α : Type} (x : α) : Local fun ts => .ok (x, ts) := by
  intro ts y rest h tail
  obtain ⟨rfl, rfl⟩ := Prod.mk.inj (Except.ok.inj h)
  rfl

theorem local_error {α : Type} (e : List Token → Failure) :
    Local fun ts => (.error (e ts) : Except Failure (α × List Token)) := by
  intro ts y rest h
  cases h

theorem local_ite {α : Type} {p : Prop} [Decidable p]
    {read read' : List Token → Except Failure (α × List Token)} (h : Local read)
    (h' : Local read') : Local fun ts => if p then read ts else read' ts := by
  split
  · exact h
  · exact h'

theorem else_ok {α : Type} {p : Prop} [Decidable p] {e e' : Failure} {x y : Except Failure α}
    {u v : α} (h : (if p then .error e else x) = .ok u) (hx : x = .ok u → y = .ok v) :
    (if p then .error e' else y) = .ok v := by
  split at h
  · cases h
  · rw [if_neg ‹_›]
    exact hx h

namespace Token

variable {test : Token → Option Char}

theorem takeChars_append (ht : test (.plain ')') = none) (n : Nat) (ts tail : List Token) :
    takeChars test n (ts ++ .plain ')' :: tail) =
      ((takeChars test n ts).1, (takeChars test n ts).2 ++ .plain ')' :: tail) := by
  induction n generalizing ts with
  | zero => simp [takeChars]
  | succ n ih =>
    cases ts with
    | nil => simp [takeChars, ht]
    | cons t ts =>
      simp only [List.cons_append, takeChars]
      cases test t with
      | none => simp
      | some c => simp [ih]

theorem takeChars_of_length_le {n m : Nat} {ts : List Token} (hn : ts.length ≤ n)
    (hm : ts.length ≤ m) : takeChars test n ts = takeChars test m ts := by
  induction ts generalizing n m with
  | nil => cases n <;> cases m <;> rfl
  | cons t ts ih =>
    obtain ⟨n, rfl⟩ : ∃ k, n = k + 1 := ⟨n - 1, by simp at hn; omega⟩
    obtain ⟨m, rfl⟩ : ∃ k, m = k + 1 := ⟨m - 1, by simp at hm; omega⟩
    simp only [takeChars]
    cases test t with
    | none => rfl
    | some c => simp [ih (n := n) (m := m) (by simpa using hn) (by simpa using hm)]

theorem takeChars_all_append (ht : test (.plain ')') = none) (ts tail : List Token) :
    takeChars test (ts ++ .plain ')' :: tail).length (ts ++ .plain ')' :: tail) =
      ((takeChars test ts.length ts).1,
        (takeChars test ts.length ts).2 ++ .plain ')' :: tail) := by
  rw [takeChars_append ht, takeChars_of_length_le (by simp) (Nat.le_refl ts.length)]

end Token

theorem splitAtPlain_append {c : Char} {ts before after : List Token}
    (h : splitAtPlain? c ts = some (before, after)) (more : List Token) :
    splitAtPlain? c (ts ++ more) = some (before, after ++ more) := by
  induction ts generalizing before with
  | nil => cases h
  | cons t ts ih =>
    rw [splitAtPlain?] at h
    rw [List.cons_append, splitAtPlain?]
    split at h
    · obtain ⟨rfl, rfl⟩ := Prod.mk.inj (Option.some.inj h)
      rw [if_pos ‹_›]
    · obtain ⟨⟨before', after'⟩, hs, he⟩ := Option.map_eq_some_iff.mp h
      obtain ⟨rfl, rfl⟩ := Prod.mk.inj he
      rw [if_neg ‹_›, ih hs]
      rfl

/-! ## Names and codes -/

theorem local_readName (terminator : Char) (kind : String) :
    Local (readName terminator kind) := by
  intro ts name rest h tail
  unfold readName at h ⊢
  split at h
  · split at h <;> cases h
  · rename_i before rest' hs
    rw [splitAtPlain_append hs]
    dsimp only
    split at h
    · cases h
    · obtain ⟨rfl, rfl⟩ := Prod.mk.inj (Except.ok.inj h)
      rw [if_neg ‹_›]

theorem local_readHexCode (letter : Char) (count : Nat) : Local (readHexCode letter count) := by
  intro ts code rest h tail
  unfold readHexCode at h ⊢
  rw [Token.takeChars_append (by decide)]
  dsimp only at h ⊢
  split at h
  · cases h
  · rw [if_neg ‹_›]
    split at h
    · cases h
    · obtain ⟨rfl, rfl⟩ := Prod.mk.inj (Except.ok.inj h)
      rw [if_neg ‹_›]

theorem local_readOctalCode (first : Char) : Local (readOctalCode first) := by
  intro ts code rest h tail
  unfold readOctalCode at h ⊢
  rw [Token.takeChars_append (by decide)]
  dsimp only at h ⊢
  split at h
  · cases h
  · obtain ⟨rfl, rfl⟩ := Prod.mk.inj (Except.ok.inj h)
    rw [if_neg ‹_›]

section

variable [CharacterNames]

theorem local_readNamedCode : Local readNamedCode := by
  intro ts code rest h tail
  unfold readNamedCode at h
  split at h
  · rename_i ts
    obtain ⟨⟨name, mid⟩, hname, hcode⟩ := bind_eq_ok.mp h
    refine bind_eq_ok.mpr ⟨_, local_readName _ _ ts name mid hname tail, ?_⟩
    dsimp only at hcode ⊢
    cases hc : CharacterNames.named? name with
    | none =>
      rw [hc] at hcode
      cases hcode
    | some c =>
      rw [hc] at hcode
      obtain ⟨rfl, rfl⟩ := Prod.mk.inj (Except.ok.inj hcode)
      rfl
  · cases h

theorem local_readCode (c : Char) : Local (readCode c) :=
  local_ite (local_readHexCode c 2) <| local_ite (local_readHexCode c 4) <|
    local_ite (local_readHexCode c 8) <| local_ite local_readNamedCode <|
    local_ite (local_error _) (local_ok c.toNat)

theorem local_readSetEscape (c : Char) : Local (readSetEscape c) := by
  unfold readSetEscape
  split
  · exact local_ok _
  · exact local_ok _
  · exact local_ite ((local_readOctalCode c).bind fun code => local_ok _) <|
      local_ite (local_error _) ((local_readCode c).bind fun code => local_ok _)

theorem local_readMember (t : Token) : Local (readMember t) := by
  cases t with
  | plain c => exact local_ok _
  | escaped c => exact local_readSetEscape c

/-! ## Character sets -/

/-- The members of a set up to its bracket. More rounds and another start of the set make no
difference where they are read at all. -/
theorem readMembers_append {fuel fuel' start start' : Nat} {items set : List SetItem}
    {ts rest : List Token} (hf : fuel ≤ fuel')
    (h : readMembers fuel start items ts = .ok (set, rest)) (tail : List Token) :
    readMembers fuel' start' items (ts ++ .plain ')' :: tail) =
      .ok (set, rest ++ .plain ')' :: tail) := by
  induction fuel generalizing fuel' items ts with
  | zero => cases h
  | succ fuel ih =>
    obtain ⟨fuel', rfl⟩ : ∃ n, fuel' = n + 1 := ⟨fuel' - 1, by omega⟩
    have hf : fuel ≤ fuel' := by omega
    cases ts with
    | nil => cases h
    | cons t ts =>
      rw [readMembers] at h
      rw [List.cons_append, readMembers]
      split at h
      · obtain ⟨rfl, rfl⟩ := Prod.mk.inj (Except.ok.inj h)
        rw [if_pos ‹_›]
      · rw [if_neg ‹_›]
        obtain ⟨⟨item, mid⟩, hm, h⟩ := bind_eq_ok.mp h
        rw [local_readMember t ts item mid hm tail]
        simp only [bind, Except.bind] at h ⊢
        split at h
        · cases h
        · obtain ⟨rfl, rfl⟩ := Prod.mk.inj (Except.ok.inj h)
          rfl
        · rename_i u mid' hne
          simp only [List.cons_append]
          obtain ⟨⟨last, mid''⟩, hu, h⟩ := bind_eq_ok.mp h
          rw [local_readMember u mid' last mid'' hu tail]
          dsimp only at h ⊢
          split at h
          · exact ih hf h
          · cases h
        · rename_i hone hclose hrange
          rcases mid with _ | ⟨t', mid⟩
          · cases fuel <;> cases h
          · have hne : t' ≠ .plain '-' := by
              rintro rfl
              rcases mid with _ | ⟨u, mid⟩
              · exact hone rfl
              · exact hrange u mid rfl
            split
            · exact absurd (List.cons.inj ‹_›).1 hne
            · exact absurd (List.cons.inj ‹_›).1 hne
            · exact absurd (List.cons.inj ‹_›).1 hne
            · exact ih hf h

theorem readSet_cons (t : Token) (ts : List Token) : ∃ negated body, ∀ more,
    readSet (t :: ts ++ more) =
      (readMembers ((body ++ more).length + 1) (Token.extent (t :: ts ++ more) + 1) []
        (body ++ more)).map fun p => (.oneOf negated p.1, p.2) := by
  by_cases ht : t = .plain '^'
  · refine ⟨true, ts, ?_⟩
    intro more
    subst ht
    simp only [readSet, List.cons_append]
    split <;> rename_i h <;> rw [h] <;> rfl
  · refine ⟨false, t :: ts, ?_⟩
    intro more
    simp only [readSet, List.cons_append, List.cons.injEq, ht, false_and, imp_self, implies_true]
    split <;> rename_i h <;> rw [h] <;> rfl

theorem local_readSet : Local readSet := by
  intro ts node rest h tail
  rcases ts with _ | ⟨t, ts⟩
  · cases h
  · obtain ⟨negated, body, hs⟩ := readSet_cons t ts
    have h₀ := hs []
    rw [List.append_nil, List.append_nil, h] at h₀
    cases hm : readMembers (body.length + 1) (Token.extent (t :: ts) + 1) [] body with
    | error e =>
      rw [hm] at h₀
      cases h₀
    | ok p =>
      rw [hm] at h₀
      rw [hs, readMembers_append (by simp) hm]
      obtain ⟨rfl, rfl⟩ := Prod.mk.inj (Except.ok.inj h₀)
      rfl

end

/-! ## Escapes -/

theorem local_readNumber (first : Char) : Local (readNumber first) := by
  intro ts escape rest h tail
  unfold readNumber at h ⊢
  rcases ts with _ | ⟨t, ts⟩
  · obtain ⟨rfl, rfl⟩ := Prod.mk.inj (Except.ok.inj h)
    rfl
  · rw [List.cons_append]
    cases hd : t.digit? with
    | none =>
      simp only [hd] at h ⊢
      obtain ⟨rfl, rfl⟩ := Prod.mk.inj (Except.ok.inj h)
      rfl
    | some second =>
      simp only [hd] at h ⊢
      cases hb : (decide (first ≤ '7') && decide (second ≤ '7')) with
      | false =>
        simp only [hb] at h ⊢
        obtain ⟨rfl, rfl⟩ := Prod.mk.inj (Except.ok.inj h)
        rfl
      | true =>
        simp only [hb] at h ⊢
        rcases ts with _ | ⟨u, ts⟩
        · obtain ⟨rfl, rfl⟩ := Prod.mk.inj (Except.ok.inj h)
          rfl
        · simp only [List.cons_append] at h ⊢
          cases ho : plainOctalDigit? u with
          | none =>
            simp only [ho] at h ⊢
            obtain ⟨rfl, rfl⟩ := Prod.mk.inj (Except.ok.inj h)
            rfl
          | some third =>
            simp only [ho] at h ⊢
            split at h
            · cases h
            · obtain ⟨rfl, rfl⟩ := Prod.mk.inj (Except.ok.inj h)
              rw [if_neg ‹_›]

theorem local_readEscape [CharacterNames] (c : Char) : Local (readEscape c) := by
  unfold readEscape
  split
  · exact local_ok _
  · exact local_ok _
  · exact local_ok _
  · exact local_ite
      ((local_readOctalCode c).bind fun code => local_ok (Escape.node (.literal code))) <|
      local_ite (local_readNumber c) <|
      (local_readCode c).bind fun code => local_ok (Escape.node (.literal code))

/-! ## Quantifiers -/

theorem readStyle_append (ts tail : List Token) :
    readStyle (ts ++ .plain ')' :: tail) =
      ((readStyle ts).1, (readStyle ts).2 ++ .plain ')' :: tail) := by
  rcases ts with _ | ⟨t, ts⟩
  · rfl
  · by_cases hl : t = .plain '?'
    · subst hl
      rfl
    · by_cases hp : t = .plain '+'
      · subst hp
        rfl
      · simp [readStyle, hl, hp]

theorem local_quantifier (least : Nat) (most : Option Nat) : Local (quantifier least most) := by
  intro ts lexeme rest h tail
  have h' : (Lexeme.quantifier (readStyle ts).1 least most, (readStyle ts).2) = (lexeme, rest) :=
    Except.ok.inj h
  obtain ⟨rfl, rfl⟩ := Prod.mk.inj h'
  simp only [quantifier, readStyle_append]

theorem splitBounds_append (ts tail : List Token) :
    splitBounds? (ts ++ .plain ')' :: tail) =
      (splitBounds? ts).map fun (least, most, rest) =>
        (least, most, rest ++ .plain ')' :: tail) := by
  unfold splitBounds?
  rw [Token.takeChars_all_append (by decide)]
  generalize Token.takeChars Token.digit? ts.length ts = p
  obtain ⟨least, mid⟩ := p
  rcases mid with _ | ⟨t, mid⟩
  · rfl
  · by_cases hc : t = .plain ','
    · subst hc
      simp only [List.cons_append]
      rw [Token.takeChars_all_append (by decide)]
      generalize Token.takeChars Token.digit? mid.length mid = q
      obtain ⟨most, mid'⟩ := q
      rcases mid' with _ | ⟨u, mid'⟩
      · rfl
      · by_cases hu : u = .plain '\x7d'
        · subst hu
          rfl
        · simp [hu]
    · by_cases hb : t = .plain '\x7d'
      · subst hb
        simp only [List.cons_append]
        cases least.isEmpty <;> rfl
      · simp [hc, hb]

theorem local_readBounds : Local readBounds := by
  intro ts lexeme rest h tail
  unfold readBounds at h ⊢
  rw [splitBounds_append]
  cases hs : splitBounds? ts with
  | none =>
    rw [hs] at h
    obtain ⟨rfl, rfl⟩ := Prod.mk.inj (Except.ok.inj h)
    rfl
  | some p =>
    obtain ⟨least, most, mid⟩ := p
    simp only [hs, Option.map_some] at h ⊢
    exact else_ok h fun h => else_ok h fun h => local_quantifier _ _ mid lexeme rest h tail

/-! ## What a bracket begins -/

theorem readComment_append {start start' : Nat} {ts rest : List Token} {lexeme : Lexeme}
    (h : readComment start ts = .ok (lexeme, rest)) (tail : List Token) :
    readComment start' (ts ++ .plain ')' :: tail) = .ok (lexeme, rest ++ .plain ')' :: tail) := by
  unfold readComment at h ⊢
  split at h
  · rename_i before mid hs
    rw [splitAtPlain_append hs]
    obtain ⟨rfl, rfl⟩ := Prod.mk.inj (Except.ok.inj h)
    rfl
  · cases h

theorem local_readGroupName (terminator : Char) : Local (readGroupName terminator) := by
  have hn : ∀ name : String, Local fun rest => if isIdentifier name.toList then .ok (name, rest)
      else failAt (.badName name) rest (name.length + 1) :=
    fun name => local_ite (local_ok name) (local_error _)
  exact (local_readName terminator "group name").bind hn

theorem local_readGroupKey : Local readGroupKey := by
  intro ts lexeme rest h tail
  unfold readGroupKey at h ⊢
  obtain ⟨⟨name, mid⟩, hn, h⟩ := bind_eq_ok.mp h
  rw [local_readName ')' "group name" ts name mid hn tail]
  simp only [bind, Except.bind] at h ⊢
  split at h
  · rw [if_pos ‹_›]
    obtain ⟨rfl, rfl⟩ := Prod.mk.inj (Except.ok.inj h)
    rfl
  · rw [if_neg ‹_›]
    cases hi : Number.integer? name.toList with
    | none =>
      simp only [hi] at h
      cases h
    | some n =>
      simp only [hi] at h ⊢
      refine else_ok h fun h => else_ok h fun h => else_ok h fun h => ?_
      obtain ⟨rfl, rfl⟩ := Prod.mk.inj (Except.ok.inj h)
      rfl

theorem local_readNamedForm : Local readNamedForm := by
  intro ts lexeme rest h tail
  rcases ts with _ | ⟨t, ts⟩
  · cases h
  · by_cases hl : t = .plain '<'
    · subst hl
      exact (local_readGroupName '>').bind
        (fun name => local_ok (Lexeme.opening (.capture (some name)))) ts lexeme rest h tail
    · by_cases he : t = .plain '='
      · subst he
        exact (local_readGroupName ')').bind (fun name => local_ok (Lexeme.named name))
          ts lexeme rest h tail
      · simp [readNamedForm, failAt] at h

theorem local_readLookBehind : Local readLookBehind := by
  intro ts lexeme rest h tail
  rcases ts with _ | ⟨t, ts⟩
  · cases h
  · by_cases hl : t = .plain '='
    · subst hl
      exact local_ok _ ts lexeme rest h tail
    · by_cases he : t = .plain '!'
      · subst he
        exact local_ok _ ts lexeme rest h tail
      · simp [readLookBehind, failAt] at h

theorem checkFlagOn_ok {flag : Flag} {added : List Flag} {ts ts' : List Token}
    (h : checkFlagOn flag added ts = .ok ()) : checkFlagOn flag added ts' = .ok () := by
  unfold checkFlagOn at h ⊢
  split_ifs at h ⊢
  · cases h
  · cases h
  · rfl

theorem readFlagsOn_append {flag : Flag} {added flags : List Flag} {ended : Char}
    {ts rest : List Token} (h : readFlagsOn flag added ts = .ok (flags, ended, rest))
    (more : List Token) :
    readFlagsOn flag added (ts ++ more) = .ok (flags, ended, rest ++ more) := by
  induction ts generalizing flag added with
  | nil =>
    rw [readFlagsOn] at h
    cases hc : checkFlagOn flag added [] <;> rw [hc] at h <;> cases h
  | cons t ts ih =>
    rw [readFlagsOn] at h
    rw [List.cons_append, readFlagsOn]
    obtain ⟨_, hc, h⟩ := bind_eq_ok.mp h
    rw [checkFlagOn_ok hc]
    simp only [bind, Except.bind] at h ⊢
    split_ifs at h ⊢
    · cases h
      rfl
    · cases h
      rfl
    · cases h
      rfl
    · cases hf : flag? t with
      | none =>
        simp only [hf] at h
        cases h
      | some next =>
        simp only [hf] at h ⊢
        exact ih h

theorem readFlagsOff_append {flag : Flag} {removed flags : List Flag} {ts rest : List Token}
    (h : readFlagsOff flag removed ts = .ok (flags, rest)) (more : List Token) :
    readFlagsOff flag removed (ts ++ more) = .ok (flags, rest ++ more) := by
  induction ts generalizing flag removed with
  | nil =>
    rw [readFlagsOff] at h
    split at h <;> cases h
  | cons t ts ih =>
    rw [readFlagsOff] at h
    rw [List.cons_append, readFlagsOff]
    split_ifs at h ⊢
    · cases h
    · cases h
      rfl
    · cases hf : flag? t with
      | none =>
        simp only [hf] at h
        cases h
      | some next =>
        simp only [hf] at h ⊢
        exact ih h

theorem local_readRemoved : Local readRemoved := by
  intro ts flags rest h tail
  rcases ts with _ | ⟨t, ts⟩
  · cases h
  · rw [readRemoved] at h
    rw [List.cons_append, readRemoved]
    cases hf : flag? t with
    | none =>
      simp only [hf] at h
      cases h
    | some flag =>
      simp only [hf] at h ⊢
      exact readFlagsOff_append h _

theorem local_readScoped (added : List Flag) (ended : Char) : Local (readScoped added ended) := by
  have hn : ∀ removed : List Flag, Local fun rest =>
      if removed.contains .template then failAt .globalFlagOff rest 1
      else if added.any removed.contains then failAt .flagOnAndOff rest 1
      else .ok (Lexeme.opening (.scoped added removed), rest) :=
    fun removed => local_ite (local_error _) <| local_ite (local_error _) (local_ok _)
  exact local_ite (local_ok _) <| local_ite (local_error _) <|
    local_ite (local_readRemoved.bind hn) (local_ok _)

theorem readExtension_append {start start' : Nat} {ts rest : List Token} {lexeme : Lexeme}
    (h : readExtension start ts = .ok (lexeme, rest)) (tail : List Token) :
    readExtension start' (ts ++ .plain ')' :: tail) =
      .ok (lexeme, rest ++ .plain ')' :: tail) := by
  unfold readExtension at h
  split at h
  · cases h
  · exact local_readNamedForm _ _ _ h tail
  · exact local_ok _ _ _ _ h tail
  · exact readComment_append h tail
  · exact local_ok _ _ _ _ h tail
  · exact local_ok _ _ _ _ h tail
  · exact local_readLookBehind _ _ _ h tail
  · exact local_readGroupKey _ _ _ h tail
  · exact local_ok _ _ _ _ h tail
  · exact local_readScoped _ _ _ _ _ h tail
  · rename_i t ts _ _ _ _ _ _ _ _ _
    rw [List.cons_append, readExtension.eq_def]
    cases hf : flag? t with
    | none =>
      simp only [hf] at h
      cases h
    | some flag =>
      simp only [hf] at h ⊢
      obtain ⟨⟨added, ended, mid⟩, hr, h⟩ := bind_eq_ok.mp h
      rw [readFlagsOn_append hr]
      exact local_readScoped added ended mid lexeme rest h tail

/-! ## Lexemes -/

theorem local_readPlain [CharacterNames] (c : Char) : Local (readPlain c) := by
  intro ts lexeme rest h tail
  unfold readPlain at h
  split at h
  · exact local_ok _ _ _ _ h tail
  · exact local_ok _ _ _ _ h tail
  · exact local_readSet.bind (fun node => local_ok (Lexeme.node node)) _ _ _ h tail
  · exact local_ok _ _ _ _ h tail
  · exact local_ok _ _ _ _ h tail
  · exact local_ok _ _ _ _ h tail
  · exact local_quantifier _ _ _ _ _ h tail
  · exact local_quantifier _ _ _ _ _ h tail
  · exact local_quantifier _ _ _ _ _ h tail
  · exact local_readBounds _ _ _ h tail
  · split at h
    · exact readExtension_append h tail
    · rename_i hq
      obtain ⟨rfl, rfl⟩ := Prod.mk.inj (Except.ok.inj h)
      rcases ts with _ | ⟨t, ts⟩
      · rfl
      · have ht : t ≠ .plain '?' := fun ht => hq ts (by rw [ht])
        simp [readPlain, ht]
  · rename_i h₁ h₂ h₃ h₄ h₅ h₆ h₇ h₈ h₉ h₁₀ h₁₁
    rw [readPlain.eq_def]
    simp only
    exact local_ok _ _ _ _ h tail

/-- A lexeme leaves a closing bracket and what follows it alone, unless it is a comment that
nothing ends. -/
theorem readLexeme_append [CharacterNames] {verbose : Bool} {t : Token} {ts rest : List Token}
    {lexeme : Lexeme} (h : readLexeme verbose t ts = .ok (lexeme, rest)) :
    (verbose = true ∧ lexeme = .blank ∧ rest = []) ∨ ∀ tail,
      readLexeme verbose t (ts ++ .plain ')' :: tail) =
        .ok (lexeme, rest ++ .plain ')' :: tail) := by
  cases t with
  | escaped c =>
    refine .inr fun tail => ?_
    rw [readLexeme] at h ⊢
    obtain ⟨⟨escape, mid⟩, he, h⟩ := bind_eq_ok.mp h
    rw [local_readEscape c ts escape mid he tail]
    cases escape with
    | node x =>
      obtain ⟨rfl, rfl⟩ := Prod.mk.inj (Except.ok.inj h)
      rfl
    | reference number digits =>
      obtain ⟨rfl, rfl⟩ := Prod.mk.inj (Except.ok.inj h)
      rfl
  | plain c =>
    simp only [readLexeme] at h ⊢
    split at h
    · rename_i hb
      refine .inr fun tail => ?_
      obtain ⟨rfl, rfl⟩ := Prod.mk.inj (Except.ok.inj h)
      rw [if_pos hb]
    · rename_i hb
      split at h
      · rename_i hc
        obtain ⟨rfl, rfl⟩ := Prod.mk.inj (Except.ok.inj h)
        cases hs : splitAtPlain? '\n' ts with
        | none => exact .inl ⟨by simp at hc; exact hc.1, rfl, rfl⟩
        | some p =>
          refine .inr fun tail => ?_
          rw [if_neg hb, if_pos hc, splitAtPlain_append hs]
          rfl
      · rename_i hc
        refine .inr fun tail => ?_
        rw [if_neg hb, if_neg hc]
        exact local_readPlain c ts lexeme rest h tail

end PathRouting.Regex
