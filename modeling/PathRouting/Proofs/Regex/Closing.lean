import PathRouting.Proofs.Regex.Extending

/-!
# Where a group ends

A text that can be read on its own closes all the brackets it opens. With one more closing bracket
behind it, no text that begins so can be read on its own. So the group around such a text ends
where the text does, and the whole tells both.
-/
namespace PathRouting.Regex

namespace Assembly

variable {o a a₂ b a' c d : Assembly}

theorem pushClose_of_no_frames (hf : a.frames = []) (here : Nat) : a.pushClose here ≠ .ok d := by
  intro h
  unfold pushClose at h
  rw [hf] at h
  dsimp only at h
  split_ifs at h

variable [CharacterNames]

/-- Where both have read a text and one has closed all its brackets, the other one has none that
the bracket behind the text could close. -/
theorem Within.not_pushAll (hne : o.frames ≠ [])
    (hbase : ∀ f ∈ o.frames.head?, f.bracket.isConditional = false) (tail more : List Token)
    {ts : List Token} {skip : Nat} (hskip : skip ≤ ts.length) (h : Within o a b)
    (h₂ : Within o a₂ b) (ha : Assembly.pushAll skip a ts = .ok a') (hf : a'.frames = [])
    (hb : Assembly.pushAll skip b (ts ++ .plain ')' :: tail) = .ok c) :
    Assembly.pushAll skip a₂ (ts ++ .plain ')' :: more) ≠ .ok d := by
  induction ts generalizing skip a a₂ b with
  | nil =>
    obtain rfl : skip = 0 := by simpa using hskip
    rw [Assembly.pushAll] at ha
    obtain rfl := Except.ok.inj ha
    -- the one that reads within others has left only the brackets around it
    have hinner : a₂.frames = [] := by
      obtain ⟨inner, hbf, hi⟩ := h₂.frames
      rw [h.frames_nil hf] at hbf
      obtain rfl : inner = [] := List.append_left_eq_self.mp hbf.symm
      exact List.forall₂_nil_right_iff.mp hi
    intro hread
    obtain ⟨lexeme, rest, next, hl, hnext, -⟩ := pushAll_cons_ok hread
    rw [readLexeme_close] at hl
    obtain ⟨rfl, rfl⟩ := Prod.mk.inj (Except.ok.inj hl)
    exact pushClose_of_no_frames hinner _ hnext
  | cons t ts ih =>
    cases skip with
    | succ skip => exact ih (by simpa using hskip) h h₂ ha hb
    | zero =>
      obtain ⟨lexeme, rest, a₁, b₁, hs, hl, ha₁, hb₁, -, ha, hb⟩ := h.lexeme hne ha hf
        (unmistaken_ok c) hb
      intro hread
      obtain ⟨lexeme₂, rest₂, next, hl₂, hnext, hread⟩ := pushAll_cons_ok hread
      rw [h₂.level.verbose, ← h.level.verbose, List.append_eq, hl more] at hl₂
      obtain ⟨rfl, rfl⟩ := Prod.mk.inj (Except.ok.inj hl₂)
      have hk : (ts ++ .plain ')' :: more).length - (rest ++ .plain ')' :: more).length =
          ts.length - rest.length := by
        simp
        omega
      rw [List.append_eq, hk] at hread
      exact ih (Nat.sub_le _ _) (h.pushed hne hbase hs ha₁ hb₁)
        (h₂.pushed hne hbase hs (push_ok hnext) hb₁) ha hb hread

/-- No expression that stands on its own begins with one that can be put into a group, and a
closing bracket behind it. -/
theorem not_ofChars_append {source more : List Char} {e e' : Expression}
    (h : ofChars source = .ok e) (h' : ofChars (source ++ ')' :: more) = .ok e')
    (hv : a.level.verbose = false) {tail : List Token} :
    a.pushAll 0 (.plain '(' :: ((Token.ofChars source).1 ++ .plain ')' :: tail)) ≠ .ok c := by
  obtain ⟨here, hopen⟩ := a.pushAll_capture (head_ne_question h tail)
  rw [hopen]
  intro hc
  obtain ⟨hw, s, hs, hf, -⟩ := ofChars_ok h
  obtain ⟨-, s', hs', -, -⟩ := ofChars_ok h'
  rw [Token.ofChars_append hw, Token.ofChars_cons (by decide)] at hs'
  exact (within_captured hv here).not_pushAll (by simp [captured, enter])
    (by simp [captured, enter, Bracket.isConditional]) tail _ (Nat.zero_le _)
    (within_captured hv here) hs hf hc hs'

theorem group_unique {source source' rest rest' : List Char} {e e' : Expression}
    (h : ofChars source = .ok e) (h' : ofChars source' = .ok e')
    (heq : source ++ ')' :: rest = source' ++ ')' :: rest') (hv : a.level.verbose = false)
    (hc : a.pushAll 0 (.plain '(' :: (Token.ofChars (source ++ ')' :: rest)).1) = .ok c) :
    source = source' ∧ rest = rest' := by
  have htokens : ∀ {text : List Char} {x : Expression} (behind : List Char),
      ofChars text = .ok x → (Token.ofChars (text ++ ')' :: behind)).1 =
        (Token.ofChars text).1 ++ .plain ')' :: (Token.ofChars behind).1 := by
    intro text x behind hx
    rw [Token.ofChars_append (ofChars_ok hx).1, Token.ofChars_cons (by decide)]
  rcases List.append_eq_append_iff.mp heq with ⟨more, rfl, hrest⟩ | ⟨more, rfl, hrest⟩
  · cases more with
    | nil =>
      rw [List.append_nil]
      exact ⟨rfl, (List.cons.inj hrest).2⟩
    | cons x more =>
      obtain ⟨rfl, -⟩ := List.cons.inj hrest
      rw [htokens rest h] at hc
      exact absurd hc (not_ofChars_append h h' hv)
  · cases more with
    | nil =>
      rw [List.append_nil]
      exact ⟨rfl, (List.cons.inj hrest).2.symm⟩
    | cons x more =>
      obtain ⟨rfl, -⟩ := List.cons.inj hrest
      rw [heq, htokens rest' h'] at hc
      exact absurd hc (not_ofChars_append h' h hv)

end Assembly

end PathRouting.Regex
