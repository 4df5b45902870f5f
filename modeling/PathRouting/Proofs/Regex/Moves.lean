import PathRouting.Proofs.Regex.Numbering
import PathRouting.Proofs.Regex.Ways

/-!
# How matching moves through a text

An expression takes text from where it stands and touches no groups but its own. Hence what a
group has captured is the text that its body took, and nothing behind it changes that.
-/
namespace PathRouting.Regex

/-- From one place to another behind some text; only groups of a kind are entered or left. -/
structure Moved (own : Nat → Prop) (taken : List Char) (c d : Cursor) : Prop where
  rest : c.rest = taken ++ d.rest
  before : d.before = taken.reverse ++ c.before
  starts : ∀ n, ¬own n → d.starts.lookup n = c.starts.lookup n
  stops : ∀ n, ¬own n → d.stops.lookup n = c.stops.lookup n

namespace Moved

variable {own own' : Nat → Prop} {taken taken' : List Char} {c d e : Cursor}

theorem refl (own : Nat → Prop) (c : Cursor) : Moved own [] c c :=
  ⟨rfl, rfl, fun _ _ => rfl, fun _ _ => rfl⟩

theorem trans (h : Moved own taken c d) (k : Moved own taken' d e) :
    Moved own (taken ++ taken') c e := by
  refine ⟨?_, ?_, ?_, ?_⟩
  · rw [h.rest, k.rest, List.append_assoc]
  · rw [k.before, h.before, List.reverse_append, List.append_assoc]
  · intro n hn
    rw [k.starts n hn, h.starts n hn]
  · intro n hn
    rw [k.stops n hn, h.stops n hn]

theorem mono (h : Moved own taken c d) (hm : ∀ n, own n → own' n) : Moved own' taken c d :=
  ⟨h.rest, h.before, fun n hn => h.starts n fun ho => hn (hm n ho),
    fun n hn => h.stops n fun ho => hn (hm n ho)⟩

theorem text (h : Moved own taken c d) : d.text = c.text := by
  simp [Cursor.text, h.rest, h.before]

theorem position (h : Moved own taken c d) : d.position = c.position + taken.length := by
  simp [Cursor.position, h.before, Nat.add_comm]

theorem bounds (h : Moved own taken c d) {n : Nat} (hn : ¬own n) :
    d.bounds? n = c.bounds? n := by
  simp only [Cursor.bounds?, h.starts n hn, h.stops n hn]

theorem captured (h : Moved own taken c d) {n : Nat} (hn : ¬own n) :
    d.captured? n = c.captured? n := by
  simp only [Cursor.captured?, h.bounds hn, h.text]

theorem group {n : Nat} (h : Moved own taken (c.enter n) d) :
    Moved (fun m => m = n ∨ own m) taken c (d.leave n) := by
  refine ⟨h.rest, h.before, ?_, ?_⟩
  · intro m hm
    rw [not_or] at hm
    have hs := h.starts m hm.2
    simpa [Cursor.enter, Cursor.leave, List.lookup_cons, beq_false_of_ne hm.1] using hs
  · intro m hm
    rw [not_or] at hm
    have hs := h.stops m hm.2
    simpa [Cursor.enter, Cursor.leave, List.lookup_cons, beq_false_of_ne hm.1] using hs

theorem captured_group {n : Nat} (h : Moved own taken (c.enter n) d) (hn : ¬own n) :
    (d.leave n).captured? n = some taken := by
  have hs : d.starts.lookup n = some c.position := by
    rw [h.starts n hn]
    simp [Cursor.enter, Cursor.position]
  have hp : d.position = c.position + taken.length := h.position
  have ht : (d.leave n).text.drop c.position = taken ++ d.rest := by
    have hb : d.before = taken.reverse ++ c.before := h.before
    simp [Cursor.text, Cursor.leave, hb, Cursor.position]
  have hb : (d.leave n).bounds? n = some (c.position, d.position) := by
    simp [Cursor.bounds?, Cursor.leave, hs, hp]
  simp [Cursor.captured?, hb, ht, hp]

end Moved

/-- Somewhere behind a place, with only groups of a kind entered or left. -/
def Reaches (own : Nat → Prop) (c d : Cursor) : Prop := ∃ taken, Moved own taken c d

namespace Reaches

variable {own own' : Nat → Prop} {c d e : Cursor}

theorem refl (own : Nat → Prop) (c : Cursor) : Reaches own c c := ⟨[], .refl own c⟩

theorem trans (h : Reaches own c d) (k : Reaches own d e) : Reaches own c e := by
  obtain ⟨taken, h⟩ := h
  obtain ⟨taken', k⟩ := k
  exact ⟨_, h.trans k⟩

theorem mono (h : Reaches own c d) (hm : ∀ n, own n → own' n) : Reaches own' c d := by
  obtain ⟨taken, h⟩ := h
  exact ⟨taken, h.mono hm⟩

end Reaches

theorem reaches_advance {own : Nat → Prop} {test : Char → Bool} {c d : Cursor}
    (h : c.advance? test = some d) : Reaches own c d := by
  unfold Cursor.advance? at h
  split at h
  · cases h
  · rename_i x rest hr
    split at h
    · obtain rfl := Option.some.inj h
      exact ⟨[x], hr, rfl, fun _ _ => rfl, fun _ _ => rfl⟩
    · cases h

theorem reaches_advanceAll {own : Nat → Prop} {same : Char → Char → Bool} {text : List Char}
    {c d : Cursor} (h : c.advanceAll? same text = some d) : Reaches own c d := by
  induction text generalizing c with
  | nil =>
    obtain rfl := Option.some.inj h
    exact .refl own c
  | cons x text ih =>
    obtain ⟨e, he, hd⟩ := Option.bind_eq_some_iff.mp h
    exact (reaches_advance he).trans (ih hd)

/-- A walk that only moves forward and keeps to groups of a kind. -/
def Walk.Keeps (own : Nat → Prop) (w : Walk) : Prop := ∀ c, ∀ d ∈ w c, Reaches own c d

namespace Walk.Keeps

variable {own : Nat → Prop} {w : Walk}

theorem times (h : w.Keeps own) (n : Nat) : (w.times n).Keeps own := by
  induction n with
  | zero =>
    intro c d hd
    rw [List.mem_singleton.mp hd]
    exact .refl own c
  | succ n ih =>
    intro c d hd
    obtain ⟨e, he, hd⟩ := List.mem_flatMap.mp hd
    exact (h c e he).trans (ih e d hd)

theorem greedy (h : w.Keeps own) (fuel : Nat) :
    ∀ room last, Walk.Keeps own (w.greedy fuel room last) := by
  induction fuel with
  | zero =>
    intro room last c d hd
    rw [List.mem_singleton.mp hd]
    exact .refl own c
  | succ fuel ih =>
    intro room last c d hd
    rw [Walk.greedy] at hd
    split at hd
    · rw [List.mem_singleton.mp hd]
      exact .refl own c
    · rcases List.mem_append.mp hd with hd | hd
      · obtain ⟨e, he, hd⟩ := List.mem_flatMap.mp hd
        exact (h c e he).trans (ih _ _ e d hd)
      · rw [List.mem_singleton.mp hd]
        exact .refl own c

theorem lazy (h : w.Keeps own) (fuel : Nat) :
    ∀ room last, Walk.Keeps own (w.lazy fuel room last) := by
  induction fuel with
  | zero =>
    intro room last c d hd
    rw [List.mem_singleton.mp hd]
    exact .refl own c
  | succ fuel ih =>
    intro room last c d hd
    rw [Walk.lazy] at hd
    rcases List.mem_cons.mp hd with rfl | hd
    · exact .refl own d
    · split at hd
      · cases hd
      · obtain ⟨e, he, hd⟩ := List.mem_flatMap.mp hd
        exact (h c e he).trans (ih _ _ e d hd)

theorem first (h : w.Keeps own) {c d : Cursor} (hd : w.step.first c = some d) :
    Reaches own c d := by
  rw [Step.first, Walk.step, findSome_some] at hd
  exact h c d (List.mem_of_mem_head? hd)

theorem firstTimes (h : w.Keeps own) (n : Nat) :
    ∀ c d, w.step.firstTimes n c = some d → Reaches own c d := by
  induction n with
  | zero =>
    intro c d hd
    obtain rfl := Option.some.inj hd
    exact .refl own c
  | succ n ih =>
    intro c d hd
    obtain ⟨e, he, hd⟩ := Option.bind_eq_some_iff.mp hd
    exact (h.first he).trans (ih e d hd)

theorem firstGreedy (h : w.Keeps own) (fuel : Nat) :
    ∀ room c, Reaches own c (w.step.firstGreedy fuel room c) := by
  induction fuel with
  | zero => exact fun room c => .refl own c
  | succ fuel ih =>
    intro room c
    rw [Step.firstGreedy]
    split
    · exact .refl own c
    · split
      · exact .refl own c
      · rename_i d hd
        split
        · exact h.first hd
        · exact (h.first hd).trans (ih _ d)

theorem repeated (h : w.Keeps own) (style : Style) (least : Nat) (most : Option Nat) :
    (w.repeated style least most).Keeps own := by
  intro c d hd
  cases style with
  | greedy =>
    obtain ⟨e, he, hd⟩ := List.mem_flatMap.mp hd
    exact (h.times least c e he).trans (h.greedy _ _ _ e d hd)
  | lazy =>
    obtain ⟨e, he, hd⟩ := List.mem_flatMap.mp hd
    exact (h.times least c e he).trans (h.lazy _ _ _ e d hd)
  | possessive =>
    obtain ⟨e, he, rfl⟩ := Option.map_eq_some_iff.mp (Option.mem_toList.mp hd)
    exact (h.firstTimes least c e he).trans (h.firstGreedy _ _ e)

end Walk.Keeps

theorem tryBackwards_eq_some {test : Cursor → Option Cursor} {starts stops : List (Nat × Nat)}
    {before rest : List Char} {d : Cursor}
    (h : tryBackwards test starts stops before rest = some d) :
    ∃ before' rest', test ⟨before', rest', starts, stops⟩ = some d := by
  induction before generalizing rest with
  | nil => exact ⟨_, _, h⟩
  | cons x before ih =>
    rw [tryBackwards] at h
    split at h
    · rename_i r hr
      obtain rfl := Option.some.inj h
      exact ⟨_, _, hr⟩
    · exact ih h

theorem endingAt_eq_some {w : Walk} {c d : Cursor} (h : endingAt w.step c = some d) :
    ∃ before rest, d ∈ w ⟨before, rest, c.starts, c.stops⟩ := by
  obtain ⟨before, rest, h⟩ := tryBackwards_eq_some h
  obtain ⟨e, he, hd⟩ := List.exists_of_findSome?_eq_some h
  split at hd
  · obtain rfl := Option.some.inj hd
    exact ⟨before, rest, he⟩
  · cases hd

theorem reaches_look {own : Nat → Prop} {w : Walk} (hw : w.Keeps own) {behind negated : Bool}
    {c d : Cursor}
    (h : d ∈ lookWays negated c (if behind then endingAt w.step c else (w c).head?)) :
    Reaches own c d := by
  have hfound : ∀ e, (if behind then endingAt w.step c else (w c).head?) = some e →
      Reaches own c (c.withGroupsOf e) := by
    intro e he
    cases behind with
    | true =>
      obtain ⟨before, rest, hm⟩ := endingAt_eq_some he
      obtain ⟨taken, hr⟩ := hw _ e hm
      exact ⟨[], rfl, rfl, hr.starts, hr.stops⟩
    | false =>
      obtain ⟨taken, hr⟩ := hw c e (List.mem_of_mem_head? he)
      exact ⟨[], rfl, rfl, hr.starts, hr.stops⟩
  unfold lookWays at h
  split at h
  · rename_i e he
    cases negated with
    | true => cases h
    | false =>
      rw [List.mem_singleton.mp h]
      exact hfound e he
  · cases negated with
    | true =>
      rw [List.mem_singleton.mp h]
      exact .refl own c
    | false => cases h

theorem Node.ways_keeps (x : Node) :
    ∀ mode, Walk.Keeps (fun n => n ∈ x.numbers) (x.ways mode) := by
  have hself : ∀ (own : Nat → Prop) (c d : Cursor), d ∈ [c] → Reaches own c d := by
    intro own c d hd
    rw [List.mem_singleton.mp hd]
    exact .refl own c
  induction x with
  | empty => exact fun mode c d hd => hself _ c d hd
  | literal code => exact fun mode c d hd => reaches_advance (Option.mem_toList.mp hd)
  | any => exact fun mode c d hd => reaches_advance (Option.mem_toList.mp hd)
  | oneOf negated items => exact fun mode c d hd => reaches_advance (Option.mem_toList.mp hd)
  | anchor kind =>
    intro mode c d hd
    rw [ways] at hd
    split at hd
    · exact hself _ c d hd
    · cases hd
  | backreference number =>
    intro mode c d hd
    obtain ⟨text, -, hd⟩ := Option.bind_eq_some_iff.mp (Option.mem_toList.mp hd)
    exact reaches_advanceAll hd
  | sequence x y ihx ihy =>
    intro mode c d hd
    obtain ⟨e, he, hd⟩ := List.mem_flatMap.mp hd
    exact ((ihx mode c e he).mono fun n hn => List.mem_append_left _ hn).trans
      ((ihy mode e d hd).mono fun n hn => List.mem_append_right _ hn)
  | choice x y ihx ihy =>
    intro mode c d hd
    rcases List.mem_append.mp hd with hd | hd
    · exact (ihx mode c d hd).mono fun n hn => List.mem_append_left _ hn
    · exact (ihy mode c d hd).mono fun n hn => List.mem_append_right _ hn
  | group number body ih =>
    intro mode c d hd
    cases number with
    | none => exact ih mode c d hd
    | some number =>
      obtain ⟨e, he, rfl⟩ := List.mem_map.mp hd
      obtain ⟨taken, h⟩ := ih mode _ e he
      exact ⟨taken, h.group.mono fun n hn => List.mem_cons.mpr hn⟩
  | «scoped» added removed body ih => exact fun mode c d hd => ih (mode.within added removed) c d hd
  | atomic body ih =>
    intro mode c d hd
    exact ih mode c d (List.mem_of_mem_head? (Option.mem_toList.mp hd))
  | look behind negated body ih => exact fun mode c d hd => reaches_look (ih mode) hd
  | conditional number yes no ihy ihn =>
    intro mode c d hd
    rw [ways] at hd
    split at hd
    · exact (ihy mode c d hd).mono fun n hn => List.mem_append_left _ hn
    · exact (ihn mode c d hd).mono fun n hn => List.mem_append_right _ hn
  | repetition style least most body ih =>
    exact fun mode c d hd => (ih mode).repeated style least most c d hd

end PathRouting.Regex
