import PathRouting.Regex.Lexeme

/-!
# Lexemes that stand for themselves

A lexeme that is an expression already is a single character or a place: it holds no groups and
refers to none.
-/
namespace PathRouting.Regex

/-- Whether an expression is a condition on a single character or on a place. -/
def Node.isSimple : Node → Bool
  | .literal _ | .any | .oneOf .. | .anchor _ => true
  | _ => false

def Lexeme.isSimple : Lexeme → Bool
  | .node x => x.isSimple
  | _ => true

def Yields {α : Type} (test : α → Bool) (result : Except Failure (α × List Token)) : Prop :=
  ∀ x rest, result = .ok (x, rest) → test x = true

section Yields

variable {α β : Type} {test : α → Bool}

theorem yields_ok {x : α} (h : test x = true) (rest : List Token) :
    Yields test (.ok (x, rest)) := by
  intro y rest' hy
  obtain ⟨rfl, rfl⟩ := Prod.mk.inj (Except.ok.inj hy)
  exact h

theorem yields_error (e : Failure) : Yields test (.error e) := by
  intro y rest hy
  cases hy

theorem yields_bind {result : Except Failure β} {next : β → Except Failure (α × List Token)}
    (h : ∀ y, Yields test (next y)) : Yields test (result >>= next) := by
  cases result with
  | error e => exact yields_error e
  | ok y => exact h y

theorem yields_ite {p : Prop} [Decidable p] {x y : Except Failure (α × List Token)}
    (hx : Yields test x) (hy : Yields test y) : Yields test (if p then x else y) := by
  split
  · exact hx
  · exact hy

end Yields

theorem readEscape_yields [CharacterNames] (c : Char) (ts : List Token) :
    Yields (fun | .node x => x.isSimple | .reference .. => true) (readEscape c ts) := by
  unfold readEscape
  split
  · exact yields_ok rfl _
  · exact yields_ok rfl _
  · exact yields_ok rfl _
  · refine yields_ite (yields_bind fun p => yields_ok rfl _) <| yields_ite ?_ <|
      yields_bind fun p => yields_ok rfl _
    unfold readNumber
    repeat' split
    · exact yields_ok rfl _
    · exact yields_ite (yields_error _) (yields_ok rfl _)
    · exact yields_ok rfl _
    · exact yields_ok rfl _
    · exact yields_ok rfl _

theorem readBounds_yields (ts : List Token) : Yields Lexeme.isSimple (readBounds ts) := by
  unfold readBounds
  split
  · exact yields_ok rfl _
  · exact yields_ite (yields_error _) <| yields_ite (yields_error _) (yields_ok rfl _)

theorem readSet_yields [CharacterNames] (ts : List Token) : Yields Node.isSimple (readSet ts) := by
  unfold readSet
  dsimp only
  split
  · exact yields_ok rfl _
  · exact yields_error _

theorem readNamedForm_yields (ts : List Token) : Yields Lexeme.isSimple (readNamedForm ts) := by
  unfold readNamedForm
  split
  · exact yields_error _
  · exact yields_bind fun p => yields_ok rfl _
  · exact yields_bind fun p => yields_ok rfl _
  · exact yields_error _

theorem readGroupKey_yields (ts : List Token) : Yields Lexeme.isSimple (readGroupKey ts) := by
  refine yields_bind fun p => yields_ite (yields_ok rfl _) ?_
  split
  · exact yields_error _
  · exact yields_ite (yields_error _) <| yields_ite (yields_error _) <|
      yields_ite (yields_error _) (yields_ok rfl _)

theorem readScoped_yields (added : List Flag) (ended : Char) (ts : List Token) :
    Yields Lexeme.isSimple (readScoped added ended ts) := by
  refine yields_ite (yields_ok rfl _) <| yields_ite (yields_error _) <|
    yields_ite (yields_bind fun p => ?_) (yields_ok rfl _)
  exact yields_ite (yields_error _) <| yields_ite (yields_error _) (yields_ok rfl _)

theorem readExtension_yields (start : Nat) (ts : List Token) :
    Yields Lexeme.isSimple (readExtension start ts) := by
  unfold readExtension
  split
  · exact yields_error _
  · exact readNamedForm_yields _
  · exact yields_ok rfl _
  · unfold readComment
    split
    · exact yields_ok rfl _
    · exact yields_error _
  · exact yields_ok rfl _
  · exact yields_ok rfl _
  · unfold readLookBehind
    split
    · exact yields_error _
    · exact yields_ok rfl _
    · exact yields_ok rfl _
    · exact yields_error _
  · exact readGroupKey_yields _
  · exact yields_ok rfl _
  · exact readScoped_yields _ _ _
  · split
    · exact yields_bind fun p => readScoped_yields _ _ _
    · exact yields_error _

theorem readPlain_yields [CharacterNames] (c : Char) (ts : List Token) :
    Yields Lexeme.isSimple (readPlain c ts) := by
  unfold readPlain
  split
  · exact yields_ok rfl _
  · exact yields_ok rfl _
  · intro lexeme rest h
    obtain ⟨⟨node, mid⟩, hs, h⟩ := bind_eq_ok.mp h
    obtain ⟨rfl, rfl⟩ := Prod.mk.inj (Except.ok.inj h)
    exact readSet_yields ts _ _ hs
  · exact yields_ok rfl _
  · exact yields_ok rfl _
  · exact yields_ok rfl _
  · exact yields_ok rfl _
  · exact yields_ok rfl _
  · exact yields_ok rfl _
  · exact readBounds_yields ts
  · split
    · exact readExtension_yields _ _
    · exact yields_ok rfl _
  · exact yields_ok rfl _

theorem readLexeme_isSimple [CharacterNames] {verbose : Bool} {t : Token} {ts rest : List Token}
    {lexeme : Lexeme} (h : readLexeme verbose t ts = .ok (lexeme, rest)) :
    lexeme.isSimple = true := by
  cases t with
  | escaped c =>
    rw [readLexeme] at h
    obtain ⟨⟨escape, mid⟩, he, h⟩ := bind_eq_ok.mp h
    have hs := readEscape_yields c ts escape mid he
    cases escape with
    | node x =>
      obtain ⟨rfl, rfl⟩ := Prod.mk.inj (Except.ok.inj h)
      exact hs
    | reference number digits =>
      obtain ⟨rfl, rfl⟩ := Prod.mk.inj (Except.ok.inj h)
      rfl
  | plain c =>
    refine yields_ite (yields_ok rfl _) (yields_ite (yields_ok rfl _) ?_) lexeme rest h
    exact readPlain_yields c ts

end PathRouting.Regex
