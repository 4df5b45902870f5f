import PathRouting.Proofs.Regex.Renumbering

/-!
# Texts beyond what can be read

Most texts that are no expression have a mistake in them. Two errors are no mistakes: a bound of
a repetition that is too large, and both alphabets at once. Neither shows when all lexemes have
been taken and no flag was set.
-/
namespace PathRouting.Regex

/-- The errors of texts that are beyond what can be read at all. -/
inductive Error.Beyond : Error → Prop where
  | repetitionTooLarge : Beyond .repetitionTooLarge
  | alphabetsClash : Beyond .alphabetsClash

theorem Failure.IsMistake.not_beyond {f : Failure} (h : f.IsMistake) (length : Nat) :
    ¬(f.toError length).Beyond := by
  cases h with
  | intro => nofun

theorem Width.lookBehindError?_not_beyond {w : Width} {e : Error}
    (h : w.lookBehindError? = some e) : ¬e.Beyond := by
  unfold lookBehindError? at h
  split at h
  · obtain rfl := Option.some.inj h
    nofun
  · split at h
    · cases h
    · obtain rfl := Option.some.inj h
      nofun

theorem Node.lateError?_not_beyond {x : Node} {groups : List (Option Width)} {template : Bool}
    {e : Error} (h : x.lateError? groups template = some e) : ¬e.Beyond := by
  have hor : ∀ {a b : Option Error}, a.or b = some e → a = some e ∨ b = some e := by
    intro a b hab
    rw [Option.or_eq_some_iff] at hab
    exact hab.imp_right And.right
  induction x with
  | sequence x y ihx ihy => exact (hor h).elim ihx ihy
  | choice x y ihx ihy => exact (hor h).elim ihx ihy
  | conditional number x y ihx ihy => exact (hor h).elim ihx ihy
  | group number x ih => exact ih h
  | «scoped» added removed x ih => exact ih h
  | atomic x ih => exact ih h
  | look behind negated x ih =>
    rcases hor h with h | h
    · split at h
      · exact Width.lookBehindError?_not_beyond h
      · cases h
    · exact ih h
  | repetition style least most x ih =>
    rw [lateError?] at h
    split at h
    · obtain rfl := Option.some.inj h
      nofun
    · exact ih h
  | _ => cases h

theorem Assembly.finish_not_beyond {a : Assembly} {length : Nat} {e : Error}
    (hflags : a.flags = []) (h : a.finish length = .error e) : ¬e.Beyond := by
  unfold finish at h
  split at h
  · obtain rfl := Except.error.inj h
    nofun
  · simp only [alphabetsClash, hflags, List.contains_nil, Bool.false_and, Bool.false_eq_true,
      if_false] at h
    split at h
    · obtain rfl := Except.error.inj h
      nofun
    · split at h
      · rename_i late hlate
        obtain rfl := Except.error.inj h
        exact Node.lateError?_not_beyond hlate
      · cases h

/-- A text is within what can be read if nothing but a mistake keeps its lexemes from being taken,
and they set no flag. -/
theorem ofChars_not_beyond [CharacterNames] {source : List Char} {result : Except Failure Assembly}
    {e : Error} (hread : Assembly.start.pushAll 0 (Token.ofChars source).1 = result)
    (htaken : Assembly.Unmistaken result → ∃ a, result = .ok a ∧ a.flags = [])
    (h : ofChars source = .error e) : ¬e.Beyond := by
  unfold ofChars at h
  simp only [hread] at h
  cases result with
  | error f =>
    have hmistake : f.IsMistake := by
      by_contra hn
      obtain ⟨a, ha, -⟩ := htaken fun g hg => Except.error.inj hg ▸ hn
      cases ha
    dsimp only at h
    split at h
    · obtain rfl := Except.error.inj h
      nofun
    · obtain rfl := Except.error.inj h
      exact hmistake.not_beyond _
  | ok a =>
    obtain ⟨b, hb, hflags⟩ := htaken (Assembly.unmistaken_ok a)
    obtain rfl := Except.ok.inj hb
    dsimp only at h
    split at h
    · obtain rfl := Except.error.inj h
      nofun
    · exact Assembly.finish_not_beyond hflags h

end PathRouting.Regex
