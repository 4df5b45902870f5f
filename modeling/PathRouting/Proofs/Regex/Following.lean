import PathRouting.Proofs.Regex.Excerpt

/-!
# Self-contained expressions on a piece of a text

Each kind of expression leads from a place of the piece to places of the piece, as it does on the
piece alone, or behind the piece. A part that keeps its first way may lose places, and nothing but
such a part depends on which way is the first.
-/
namespace PathRouting.Regex

variable {n : Nat} {base tail : List Char} {exact : Prop} {c d : Cursor}

/-! ## Single steps -/

theorem follows_advance (h : Excerpt n base tail c d) (test : Char → Bool) :
    Follows n base tail exact (c.advance? test).toList (d.advance? test).toList := by
  cases hd : d.rest with
  | nil =>
    have hrest : c.rest = tail := by rw [h.rest, hd, List.nil_append]
    have hnone : d.advance? test = none := by rw [Cursor.advance?, hd]
    rw [hnone]
    refine .allBeyond ?_
    intro e he
    rw [Option.mem_toList, Cursor.advance?, hrest] at he
    split at he
    · cases he
    · split_ifs at he
      cases he
      exact Nat.lt_succ_self _
  | cons x rest =>
    have hrest : c.rest = x :: (rest ++ tail) := by rw [h.rest, hd, List.cons_append]
    rw [Cursor.advance?, Cursor.advance?, hrest, hd]
    cases htest : test x with
    | true =>
      simp only [htest, if_true, Option.toList_some]
      exact .single (h.of_rest_cons hd)
    | false =>
      simp only [htest, Bool.false_eq_true, if_false, Option.toList_none]
      exact .nil

theorem follows_advanceAll (same : Char → Char → Bool) (text : List Char)
    (h : Excerpt n base tail c d) :
    Follows n base tail exact (c.advanceAll? same text).toList
      (d.advanceAll? same text).toList := by
  induction text generalizing c d with
  | nil => exact .single h
  | cons x text ih =>
    rw [Cursor.advanceAll?, Cursor.advanceAll?, Option.toList_bind, Option.toList_bind]
    have hkeeps : Walk.Keeps (fun _ => False) fun c => (c.advanceAll? same text).toList :=
      fun c e he => reaches_advanceAll (Option.mem_toList.mp he)
    exact (follows_advance h _).flatMap hkeeps fun c _ d _ hcd => ih hcd

/-! ## Repetitions -/

/-- A walk that leads from places of the piece to where another walk leads on the piece alone, or
behind the piece. -/
def Walk.Follows (n : Nat) (base tail : List Char) (exact : Prop) (w v : Walk) : Prop :=
  ∀ ⦃c d⦄, Excerpt n base tail c d → Regex.Follows n base tail exact (w c) (v d)

/-- A number of rounds that is not exhausted before a repetition stops by itself. -/
def Suffices (fuel : Nat) (last : Option Nat) (c : Cursor) : Prop :=
  last = some c.position ∨ c.rest.length < fuel

theorem suffices_rounds (c : Cursor) : Suffices (rounds c) none c := by
  right
  rw [rounds]
  omega

theorem Reaches.position_or_rest {own : Nat → Prop} (h : Reaches own c d) :
    d.position = c.position ∨ d.rest.length < c.rest.length := by
  obtain ⟨taken, hm⟩ := h
  rw [hm.position, hm.rest, List.length_append]
  omega

theorem Suffices.going {fuel : Nat} {room last : Option Nat} (h : Suffices fuel last c)
    (hs : ¬(room = some 0 ∨ last = some c.position)) :
    ∃ k, fuel = k + 1 ∧ c.rest.length < k + 1 := by
  have hlt := h.resolve_left fun he => hs (.inr he)
  exact ⟨fuel - 1, by omega, by omega⟩

theorem Suffices.next {own : Nat → Prop} {fuel : Nat} (h : c.rest.length < fuel + 1)
    (hd : Reaches own c d) : Suffices fuel (some c.position) d := by
  rcases hd.position_or_rest with he | hlt
  · exact .inl (congrArg some he.symm)
  · right
    omega

namespace Walk

variable {own own' : Nat → Prop} {w v : Walk}

theorem first_eq (w : Walk) (c : Cursor) : w.step.first c = (w c).head? := by
  rw [Step.first, step, findSome_some]

theorem greedy_stopped {fuel : Nat} {room last : Option Nat}
    (h : room = some 0 ∨ last = some c.position) : w.greedy fuel room last c = [c] := by
  cases fuel with
  | zero => rfl
  | succ fuel =>
    rw [greedy, if_pos]
    simpa using h

theorem greedy_going {fuel : Nat} {room last : Option Nat}
    (h : ¬(room = some 0 ∨ last = some c.position)) : w.greedy (fuel + 1) room last c =
      (w c).flatMap (w.greedy fuel (room.map (· - 1)) (some c.position)) ++ [c] := by
  rw [greedy, if_neg]
  simpa using h

theorem lazy_stopped {fuel : Nat} {room last : Option Nat}
    (h : room = some 0 ∨ last = some c.position) : w.lazy fuel room last c = [c] := by
  cases fuel with
  | zero => rfl
  | succ fuel =>
    rw [lazy, if_pos]
    simpa using h

theorem lazy_going {fuel : Nat} {room last : Option Nat}
    (h : ¬(room = some 0 ∨ last = some c.position)) : w.lazy (fuel + 1) room last c =
      c :: (w c).flatMap (w.lazy fuel (room.map (· - 1)) (some c.position)) := by
  rw [lazy, if_neg]
  simpa using h

namespace Follows

theorem times (hw : w.Keeps own) (h : w.Follows n base tail exact v) (k : Nat) :
    (w.times k).Follows n base tail exact (v.times k) := by
  induction k with
  | zero => exact fun c d hcd => .single hcd
  | succ k ih =>
    exact fun c d hcd => (h hcd).flatMap (hw.times k) fun _ _ _ _ he => ih he

theorem stops_iff (hcd : Excerpt n base tail c d) (room last : Option Nat) :
    (room = some 0 ∨ last.map (· + base.length) = some c.position) ↔
      (room = some 0 ∨ last = some d.position) := by
  rw [hcd.position]
  cases last <;> simp

/-- One more round. From where the bodies end, the rounds that are left suffice. -/
theorem round (hw : w.Keeps own) (hv : v.Keeps own') (h : w.Follows n base tail exact v)
    {next next' : Walk} {k k' : Nat} (hcd : Excerpt n base tail c d) (hnext : next.Keeps own)
    (hc : c.rest.length < k + 1) (hd : d.rest.length < k' + 1)
    (hrec : ∀ e f, Excerpt n base tail e f → Suffices k (some c.position) e →
      Suffices k' (some d.position) f → Regex.Follows n base tail exact (next e) (next' f)) :
    Regex.Follows n base tail exact ((w c).flatMap next) ((v d).flatMap next') :=
  (h hcd).flatMap hnext fun e he f hf hef =>
    hrec e f hef (.next hc (hw c e he)) (.next hd (hv d f hf))

theorem greedy (hw : w.Keeps own) (hv : v.Keeps own') (h : w.Follows n base tail exact v)
    {fuel fuel' : Nat} {room last : Option Nat} (hcd : Excerpt n base tail c d)
    (hc : Suffices fuel (last.map (· + base.length)) c) (hd : Suffices fuel' last d) :
    Regex.Follows n base tail exact (w.greedy fuel room (last.map (· + base.length)) c)
      (v.greedy fuel' room last d) := by
  -- the text is longer than the piece, so the two numbers of rounds differ from the start
  induction fuel using Nat.strongRecOn generalizing fuel' room last c d with
  | ind fuel ih =>
    have hiff := stops_iff hcd room last
    by_cases hstop : room = some 0 ∨ last = some d.position
    · rw [greedy_stopped (hiff.mpr hstop), greedy_stopped hstop]
      exact .single hcd
    · have hstop' := fun hs => hstop (hiff.mp hs)
      obtain ⟨k, rfl, hrest⟩ := hc.going hstop'
      obtain ⟨k', rfl, hrest'⟩ := hd.going hstop
      rw [greedy_going hstop', greedy_going hstop]
      have hp : some c.position = (some d.position).map (· + base.length) :=
        congrArg some hcd.position
      refine .append (round hw hv h hcd (hw.greedy _ _ _) hrest hrest' ?_) (.single hcd)
      rw [hp]
      exact fun e f hef he hf => ih k (Nat.lt_succ_self k) hef he hf

theorem lazy (hw : w.Keeps own) (hv : v.Keeps own') (h : w.Follows n base tail exact v)
    {fuel fuel' : Nat} {room last : Option Nat} (hcd : Excerpt n base tail c d)
    (hc : Suffices fuel (last.map (· + base.length)) c) (hd : Suffices fuel' last d) :
    Regex.Follows n base tail exact (w.lazy fuel room (last.map (· + base.length)) c)
      (v.lazy fuel' room last d) := by
  induction fuel using Nat.strongRecOn generalizing fuel' room last c d with
  | ind fuel ih =>
    have hiff := stops_iff hcd room last
    by_cases hstop : room = some 0 ∨ last = some d.position
    · rw [lazy_stopped (hiff.mpr hstop), lazy_stopped hstop]
      exact .single hcd
    · have hstop' := fun hs => hstop (hiff.mp hs)
      obtain ⟨k, rfl, hrest⟩ := hc.going hstop'
      obtain ⟨k', rfl, hrest'⟩ := hd.going hstop
      rw [lazy_going hstop', lazy_going hstop]
      have hp : some c.position = (some d.position).map (· + base.length) :=
        congrArg some hcd.position
      refine .both hcd (round hw hv h hcd (hw.lazy _ _ _) hrest hrest' ?_)
      rw [hp]
      exact fun e f hef he hf => ih k (Nat.lt_succ_self k) hef he hf

theorem first (h : w.Follows n base tail True v) (hcd : Excerpt n base tail c d) :
    (w.step.first c = none ∧ v.step.first d = none) ∨
      (∃ e, w.step.first c = some e ∧ Beyond tail e) ∨
      ∃ e f, w.step.first c = some e ∧ v.step.first d = some f ∧ Excerpt n base tail e f := by
  have hfollows := h hcd
  rw [first_eq, first_eq]
  generalize w c = cs at hfollows ⊢
  generalize v d = ds at hfollows ⊢
  cases hfollows with
  | nil => exact .inl ⟨rfl, rfl⟩
  | both he _ => exact .inr (.inr ⟨_, _, rfl, rfl, he⟩)
  | beyond hb _ => exact .inr (.inl ⟨_, rfl, hb⟩)
  | lost _ hn _ => exact absurd trivial hn

theorem firstTimes (hw : w.Keeps own) (h : w.Follows n base tail True v) (k : Nat)
    (hcd : Excerpt n base tail c d) {e : Cursor} (he : w.step.firstTimes k c = some e) :
    Beyond tail e ∨ ∃ f, v.step.firstTimes k d = some f ∧ Excerpt n base tail e f := by
  induction k generalizing c d with
  | zero =>
    obtain rfl := Option.some.inj he
    exact .inr ⟨d, rfl, hcd⟩
  | succ k ih =>
    obtain ⟨c', hc', he⟩ := Option.bind_eq_some_iff.mp he
    obtain ⟨hnone, -⟩ | ⟨c'', hc'', hb⟩ | ⟨c'', d', hc'', hd', hcd'⟩ := first h hcd
    · cases hnone.symm.trans hc'
    · obtain rfl := Option.some.inj (hc''.symm.trans hc')
      exact .inl ((hw.firstTimes k c'' e he).beyond hb)
    · obtain rfl := Option.some.inj (hc''.symm.trans hc')
      rw [Step.firstTimes, hd']
      exact ih hcd' he

theorem firstGreedy (hw : w.Keeps own) (hv : v.Keeps own') (h : w.Follows n base tail True v)
    {fuel fuel' : Nat} (room : Option Nat) (hcd : Excerpt n base tail c d)
    (hc : c.rest.length < fuel) (hd : d.rest.length < fuel') :
    Beyond tail (w.step.firstGreedy fuel room c) ∨
      Excerpt n base tail (w.step.firstGreedy fuel room c) (v.step.firstGreedy fuel' room d) := by
  induction fuel generalizing fuel' room c d with
  | zero => cases hc
  | succ fuel ih =>
    obtain ⟨fuel', rfl⟩ : ∃ k, fuel' = k + 1 := ⟨fuel' - 1, by omega⟩
    rw [Step.firstGreedy, Step.firstGreedy]
    split_ifs
    · exact .inr hcd
    · obtain ⟨hc', hd'⟩ | ⟨c', hc', hb⟩ | ⟨c', d', hc', hd', hcd'⟩ := first h hcd
      · rw [hc', hd']
        exact .inr hcd
      · left
        simp only [hc']
        split_ifs
        · exact hb
        · exact (hw.firstGreedy fuel _ c').beyond hb
      · simp only [hc', hd', hcd.position, hcd'.position, Nat.add_right_cancel_iff]
        split_ifs with hstay
        · exact .inr hcd'
        · have hmoved := (hw.first hc').position_or_rest
          have hmoved' := (hv.first hd').position_or_rest
          rw [hcd.position, hcd'.position] at hmoved
          exact ih _ hcd' (by omega) (by omega)

/-- A repetition follows where its body does, and one that does not reconsider where its body
loses nothing. -/
theorem repeated (hw : w.Keeps own) (hv : v.Keeps own') (h : w.Follows n base tail exact v)
    (style : Style) (hs : style = .possessive → ¬exact ∧ w.Follows n base tail True v)
    (least : Nat) (most : Option Nat) :
    (w.repeated style least most).Follows n base tail exact (v.repeated style least most) := by
  intro c d hcd
  cases style with
  | greedy =>
    refine (times hw h least hcd).flatMap (fun e => hw.greedy _ _ _ e) ?_
    exact fun e _ f _ hef => greedy hw hv h hef (suffices_rounds e) (suffices_rounds f)
  | lazy =>
    refine (times hw h least hcd).flatMap (fun e => hw.lazy _ _ _ e) ?_
    exact fun e _ f _ hef => lazy hw hv h hef (suffices_rounds e) (suffices_rounds f)
  | possessive =>
    obtain ⟨hn, hexact⟩ := hs rfl
    cases hc : w.step.firstTimes least c with
    | none =>
      simp only [Walk.repeated, hc, Option.map_none, Option.toList_none]
      exact .allLost hn _
    | some e =>
      obtain hb | ⟨f, hf, hef⟩ := firstTimes hw hexact least hcd hc
      · have hb' := (hw.firstGreedy (rounds e) (most.map (· - least)) e).beyond hb
        simp only [Walk.repeated, hc, Option.map_some, Option.toList_some]
        exact .beyond hb' (.allLost hn _)
      · simp only [Walk.repeated, hc, hf, Option.map_some, Option.toList_some]
        have he : e.rest.length < rounds e := by rw [rounds]; omega
        have hf' : f.rest.length < rounds f := by rw [rounds]; omega
        obtain hb | hends := firstGreedy hw hv hexact (most.map (· - least)) hef he hf'
        · exact .beyond hb (.allLost hn _)
        · exact .single hends

end Follows

end Walk

/-! ## Expressions -/

namespace Node

theorem recommits_of_commits {x : Node} (h : x.commits = false) : x.recommits = false := by
  induction x with
  | sequence x y ihx ihy | choice x y ihx ihy | conditional _ x y ihx ihy =>
    rw [commits, Bool.or_eq_false_iff] at h
    rw [recommits, ihx h.1, ihy h.2]
    rfl
  | group _ x ih | «scoped» _ _ x ih | look _ _ x ih => exact ih h
  | atomic => cases h
  | repetition style _ _ x ih =>
    cases style with
    | possessive => cases h
    | greedy | lazy => exact ih h
  | _ => rfl

/-- Nothing in an expression depends on where it stands. Where no place may be lost, no part keeps
its first way to match. -/
structure SelfContained (exact : Prop) (x : Node) : Prop where
  looks : x.looksAround = false
  recommits : x.recommits = false
  numbers : ∀ k ∈ x.numbers, 0 < k
  commits : exact → x.commits = false

theorem SelfContained.parts {x y z : Node} (h : z.SelfContained exact)
    (hl : z.looksAround = (x.looksAround || y.looksAround))
    (hr : z.recommits = (x.recommits || y.recommits)) (hn : z.numbers = x.numbers ++ y.numbers)
    (hc : z.commits = (x.commits || y.commits)) :
    x.SelfContained exact ∧ y.SelfContained exact := by
  obtain ⟨hlx, hly⟩ := Bool.or_eq_false_iff.mp (hl ▸ h.looks)
  obtain ⟨hrx, hry⟩ := Bool.or_eq_false_iff.mp (hr ▸ h.recommits)
  obtain ⟨hnx, hny⟩ := List.forall_mem_append.mp (hn ▸ h.numbers)
  have hcommits := fun he => Bool.or_eq_false_iff.mp (hc ▸ h.commits he)
  exact ⟨⟨hlx, hrx, hnx, fun he => (hcommits he).1⟩, ⟨hly, hry, hny, fun he => (hcommits he).2⟩⟩

/-- The body of a part that keeps its first way loses no place, since it has no such part. -/
theorem SelfContained.of_commits {x : Node} (hl : x.looksAround = false) (hx : x.commits = false)
    (hn : ∀ k ∈ x.numbers, 0 < k) : x.SelfContained True :=
  ⟨hl, recommits_of_commits hx, hn, fun _ => hx⟩

/-- On a piece of a text that stands anywhere, with its groups and references moved, an expression
goes through places that it goes through on the piece alone, and through places behind the piece. -/
theorem SelfContained.follows {x : Node} (h : x.SelfContained exact) (mode : Mode) :
    ((x.carried n).ways mode).Follows n base tail exact (x.ways mode) := by
  induction x generalizing mode exact with
  | empty => exact fun c d hcd => .single hcd
  | literal | any | oneOf => exact fun c d hcd => follows_advance hcd _
  | anchor | look => cases h.looks
  | backreference number =>
    intro c d hcd
    simp only [carried, ways, hcd.captured]
    cases d.captured? number with
    | none => exact .nil
    | some text => exact follows_advanceAll _ text hcd
  | sequence x y ihx ihy =>
    obtain ⟨hx, hy⟩ := h.parts rfl rfl rfl rfl
    intro c d hcd
    exact (ihx hx mode hcd).flatMap ((y.carried n).ways_keeps mode)
      fun _ _ _ _ he => ihy hy mode he
  | choice x y ihx ihy =>
    obtain ⟨hx, hy⟩ := h.parts rfl rfl rfl rfl
    exact fun c d hcd => (ihx hx mode hcd).append (ihy hy mode hcd)
  | conditional number x y ihx ihy =>
    obtain ⟨hx, hy⟩ := h.parts rfl rfl rfl rfl
    intro c d hcd
    simp only [carried, ways, hcd.bounds, Option.isSome_map]
    split_ifs
    · exact ihx hx mode hcd
    · exact ihy hy mode hcd
  | group number x ih =>
    cases number with
    | none => exact ih ⟨h.looks, h.recommits, h.numbers, h.commits⟩ mode
    | some k =>
      obtain ⟨hk, hn⟩ := List.forall_mem_cons.mp h.numbers
      intro c d hcd
      exact (ih ⟨h.looks, h.recommits, hn, h.commits⟩ mode (hcd.enter k)).map (fun c hc => hc)
        fun c d he => he.leave hk
  | «scoped» added removed x ih =>
    exact ih ⟨h.looks, h.recommits, h.numbers, h.commits⟩ (mode.within added removed)
  | atomic x ih =>
    have hn : ¬exact := fun he => Bool.noConfusion (h.commits he)
    -- the body loses nothing, so its first way is also the first one on the piece, or lies
    -- behind it
    have hx := ih (.of_commits h.looks h.recommits h.numbers) mode
    intro c d hcd
    simp only [carried, ways, ← Walk.first_eq]
    obtain ⟨hc, -⟩ | ⟨e, hc, hb⟩ | ⟨e, f, hc, hd, hef⟩ := hx.first hcd
    · rw [hc]
      exact .allLost hn _
    · rw [hc]
      exact .beyond hb (.allLost hn _)
    · rw [hc, hd]
      exact .single hef
  | repetition style least most x ih =>
    have hkeeps := (x.carried n).ways_keeps mode
    cases style with
    | possessive =>
      have hn : ¬exact := fun he => Bool.noConfusion (h.commits he)
      have hx : x.SelfContained True := .of_commits h.looks h.recommits h.numbers
      exact .repeated hkeeps (x.ways_keeps mode)
        (ih ⟨hx.looks, hx.recommits, hx.numbers, fun _ => h.recommits⟩ mode) .possessive
        (fun _ => ⟨hn, ih hx mode⟩) least most
    | greedy =>
      exact .repeated hkeeps (x.ways_keeps mode)
        (ih ⟨h.looks, h.recommits, h.numbers, h.commits⟩ mode) .greedy (by rintro ⟨⟩) least most
    | lazy =>
      exact .repeated hkeeps (x.ways_keeps mode)
        (ih ⟨h.looks, h.recommits, h.numbers, h.commits⟩ mode) .lazy (by rintro ⟨⟩) least most

end Node

/-- What a self-contained expression takes from a text, where its groups have not been entered yet,
it matches alone. -/
theorem matchAll_of_mem_ways [CharacterNames] {source : List Char} {e : Expression}
    (he : ofChars source = .ok e)
    (hs : isSelfContained source = true) (hstarts : ∀ k, n < k → c.starts.lookup k = none)
    (hstops : ∀ k, n ≤ k → c.stops.lookup k = none)
    (hd : d ∈ (e.root.carried n).ways .plain c) {taken : List Char}
    (htaken : c.rest = taken ++ d.rest) : (e.root.matchAll .plain taken).isSome = true := by
  simp only [isSelfContained, he, Bool.and_eq_true, Bool.not_eq_true'] at hs
  obtain ⟨⟨⟨⟨-, hlooks⟩, hrecommits⟩, -⟩, -⟩ := hs
  have hself : e.root.SelfContained False := by
    refine ⟨hlooks, hrecommits, ?_, False.elim⟩
    intro k hk
    have hr := (numbers_ofChars he).subset hk
    rw [List.mem_range'_1] at hr
    omega
  have hstart : Excerpt n c.before d.rest c (.start taken) := by
    refine ⟨rfl, htaken, ?_, ?_, rfl, nofun⟩
    · exact fun k hk => hstarts (k + n) (by omega)
    · exact fun k => hstops (k + n) (by omega)
  obtain hb | ⟨f, hf, hdf⟩ := (hself.follows .plain hstart).mem hd
  · exact absurd hb (Nat.lt_irrefl _)
  · have hrest : f.rest = [] := by simpa using hdf.rest
    rw [Node.matchAll, Node.run_eq_findSome, List.findSome?_isSome_iff]
    exact ⟨f, hf, by simp [hrest]⟩

end PathRouting.Regex
