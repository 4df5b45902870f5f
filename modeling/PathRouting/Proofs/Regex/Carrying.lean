import PathRouting.Proofs.Regex.Renumbering

/-!
# References that move with their groups

Inside another expression, groups are numbered onwards. A reference by name goes to the same group
all the same, so it has been moved with it, while a reference by number is left as it was written.
-/
namespace PathRouting.Regex

namespace Node

/-- An expression with its groups and all references to them moved by a distance. -/
def carried (n : Nat) : Node → Node
  | .backreference number => .backreference (number + n)
  | .sequence x y => .sequence (x.carried n) (y.carried n)
  | .choice x y => .choice (x.carried n) (y.carried n)
  | .group number x => .group (number.map (· + n)) (x.carried n)
  | .scoped added removed x => .scoped added removed (x.carried n)
  | .atomic x => .atomic (x.carried n)
  | .look behind negated x => .look behind negated (x.carried n)
  | .conditional number x y => .conditional (number + n) (x.carried n) (y.carried n)
  | .repetition style least most x => .repetition style least most (x.carried n)
  | x => x

theorem carried_of_isSimple {x : Node} (h : x.isSimple = true) (n : Nat) : x.carried n = x := by
  cases x <;> first | rfl | cases h

theorem carried_ofList (n : Nat) (xs : List Node) :
    (ofList xs).carried n = ofList (xs.map (carried n)) := by
  induction xs with
  | nil => rfl
  | cons x xs ih =>
    cases xs with
    | nil => rfl
    | cons y ys => exact congrArg (sequence (x.carried n)) ih

theorem carried_ofAlternatives (n : Nat) (xs : List Node) :
    (ofAlternatives xs).carried n = ofAlternatives (xs.map (carried n)) := by
  induction xs with
  | nil => rfl
  | cons x xs ih =>
    cases xs with
    | nil => rfl
    | cons y ys => exact congrArg (choice (x.carried n)) ih

end Node

/-- A level with its groups and all references to them moved. -/
def Level.carried (n : Nat) (l : Level) : Level :=
  ⟨l.alternatives.map (Node.carried n), l.items.map (Node.carried n), l.verbose⟩

namespace Level

theorem current_carried (n : Nat) (l : Level) : (l.carried n).current = l.current.carried n := by
  rw [current, current, Node.carried_ofList, List.map_reverse]
  rfl

theorem node_carried (n : Nat) (l : Level) : (l.carried n).node = l.node.carried n := by
  rw [node, node, current_carried, Node.carried_ofAlternatives, List.map_reverse]
  rfl

theorem carried_empty (n : Nat) (verbose : Bool) : (empty verbose).carried n = empty verbose := rfl

end Level

/-- An open bracket and the same bracket with its groups and all references to them moved. -/
inductive Bracket.Carries (n : Nat) : Bracket → Bracket → Prop where
  | capture (number : Nat) : Carries n (.capture number) (.capture (number + n))
  | plain : Carries n .plain .plain
  | atomic : Carries n .atomic .atomic
  | look (behind negated nested nested' : Bool) :
      Carries n (.look behind negated nested) (.look behind negated nested')
  | conditional (number : Nat) (yes : Option Node) :
      Carries n (.conditional number yes) (.conditional (number + n) (yes.map (Node.carried n)))
  | scoped (added removed : List Flag) : Carries n (.scoped added removed) (.scoped added removed)

theorem Bracket.Carries.isConditional {n : Nat} {x y : Bracket} (h : x.Carries n y) :
    y.isConditional = x.isConditional := by
  cases h <;> rfl

theorem Bracket.Carries.close {n : Nat} {x y : Bracket} (h : x.Carries n y) (l : Level) :
    y.close (l.carried n) = (x.close l).carried n := by
  cases h with
  | conditional number yes =>
    cases yes <;> simp [Bracket.close, Level.current_carried, Node.carried]
  | _ => simp [Bracket.close, Level.node_carried, Node.carried]

/-- A frame and the same frame with its groups and all references to them moved. -/
structure Frame.Carries (n : Nat) (f f' : Frame) : Prop where
  bracket : f.bracket.Carries n f'.bracket
  outer : f'.outer = f.outer.carried n

namespace Assembly

/-- What one assembly has read on its own is what another one has read within others, with all
references moved. -/
structure Carries (o a b : Assembly) : Prop where
  level : b.level = a.level.carried o.groups.length
  frames : ∃ inner, b.frames = inner ++ o.frames ∧
    List.Forall₂ (Frame.Carries o.groups.length) a.frames inner

namespace Carries

variable {o a b a' b' : Assembly}

theorem append (h : Carries o a b) (x : Node) :
    Carries o (a.append x) (b.append (x.carried o.groups.length)) := by
  refine ⟨?_, h.frames⟩
  simp [Assembly.append, h.level, Level.carried]

theorem frames_cons (h : Carries o a b) {f : Frame} {fs : List Frame} (hf : a.frames = f :: fs) :
    ∃ f' fs', b.frames = f' :: (fs' ++ o.frames) ∧ f.Carries o.groups.length f' ∧
      List.Forall₂ (Frame.Carries o.groups.length) fs fs' := by
  obtain ⟨inner, hb, hi⟩ := h.frames
  rw [hf] at hi
  cases hi with
  | cons hx ht => exact ⟨_, _, hb, hx, ht⟩

theorem opens (hw : Within o a b) {kind : Opening} {x y : Bracket}
    {known known' : List (String × Nat)} (hn : (Lexeme.opening kind).countsGroups = false)
    (hx : Opens a kind x known) (hy : Opens b kind y known') : x.Carries o.groups.length y := by
  have hg : b.groups.length + 1 = a.groups.length + 1 + o.groups.length := by
    rw [hw.groups]
    omega
  cases hx with
  | capture =>
    cases hy with
    | capture => exact hg ▸ .capture _
  | named name =>
    cases hy with
    | named => exact hg ▸ .capture _
  | plain =>
    cases hy with
    | plain => exact .plain
  | atomic =>
    cases hy with
    | atomic => exact .atomic
  | look behind negated nested =>
    cases hy with
    | look _ _ nested' => exact .look behind negated nested nested'
  | byName length hk =>
    cases hy with
    | byName _ hm =>
      rw [hw.lookup hk hm]
      exact .conditional _ none
  | byNumber number length => cases hn
  | «scoped» added removed =>
    cases hy with
    | «scoped» => exact .scoped added removed

theorem pushed (h : Carries o a b) (hw : Within o a b) (hne : o.frames ≠ [])
    (hbase : ∀ f ∈ o.frames.head?, f.bracket.isConditional = false) {lexeme : Lexeme}
    (hs : lexeme.isSimple = true) (hn : lexeme.countsGroups = false) (ha : Pushed a lexeme a')
    (hb : Pushed b lexeme b') : Carries o a' b' := by
  cases ha with
  | blank =>
    cases hb with
    | blank => exact h
  | node x =>
    cases hb with
    | node =>
      have hx := h.append x
      rw [Node.carried_of_isSimple hs] at hx
      exact hx
  | numbered number digits => cases hn
  | named hk =>
    cases hb with
    | named hm =>
      rw [hw.lookup hk hm]
      exact h.append (.backreference _)
  | quantifier style least most hi =>
    cases hb with
    | quantifier _ _ _ hi' =>
      rw [h.level, Level.carried, hi, List.map_cons] at hi'
      obtain ⟨rfl, rfl⟩ := List.cons.inj hi'
      refine ⟨?_, h.frames⟩
      simp [h.level, Level.carried, Node.carried]
  | opening here asked limit ho =>
    cases hb with
    | opening here' asked' limit' ho' =>
      obtain ⟨inner, hf, hi⟩ := h.frames
      refine ⟨?_, ⟨⟨_, here', b.level⟩ :: inner, ?_, .cons ⟨opens hw hn ho ho', h.level⟩ hi⟩⟩
      · have hv := hw.level.verbose
        simp [enter, Level.carried_empty, hv]
      · simp [enter, hf]
  | flags added hf =>
    cases hb with
    | flags _ hf' => exact absurd ((hw.frames_nil hf).symm.trans hf') hne
  | bar hc =>
    cases hb with
    | bar =>
      refine ⟨?_, h.frames⟩
      rw [h.level, Level.current_carried]
      rfl
    | branch hf' =>
      have hk := hw.isConditional_head hbase hc _ (by rw [hf']; rfl)
      cases hk
  | branch hf =>
    obtain ⟨f', fs', hb', hx, ht⟩ := h.frames_cons hf
    cases hb with
    | bar hc =>
      have hk := hc f' (by rw [hb']; rfl)
      cases hx.bracket.isConditional.symm.trans hk
    | branch hf' =>
      rw [hb'] at hf'
      obtain ⟨rfl, rfl⟩ := List.cons.inj hf'
      cases hx.bracket
      refine ⟨?_, ⟨_ :: fs', rfl, .cons ⟨?_, hx.outer⟩ ht⟩⟩
      · rw [h.level]
        rfl
      · rw [h.level, Level.current_carried]
        exact .conditional _ (some _)
  | close limit hf hg =>
    obtain ⟨f', fs', hb', hx, ht⟩ := h.frames_cons hf
    cases hb with
    | close limit' hf' hg' =>
      rw [hb'] at hf'
      obtain ⟨rfl, rfl⟩ := List.cons.inj hf'
      have houter := hx.outer
      dsimp only at houter
      subst houter
      refine ⟨?_, ⟨fs', rfl, ht⟩⟩
      simp only [leave, h.level, hx.bracket.close]
      rfl

end Carries

/-- A text that can be read on its own is read in the same way up to the bracket behind it. If it
counts no groups, all its references have been moved. -/
theorem Within.pushAll [CharacterNames] {o a b a' : Assembly} (hne : o.frames ≠ [])
    (hbase : ∀ f ∈ o.frames.head?, f.bracket.isConditional = false) (tail : List Token)
    {ts : List Token} {skip : Nat} (hskip : skip ≤ ts.length) (h : Within o a b)
    (ha : Assembly.pushAll skip a ts = .ok a') (hf : a'.frames = [])
    {result : Except Failure Assembly} (hr : Unmistaken result)
    (hb : Assembly.pushAll skip b (ts ++ .plain ')' :: tail) = result) :
    ∃ b', Within o a' b' ∧
      (((lexemes skip a ts).all fun lexeme => !lexeme.countsGroups) = true → Carries o a b →
        Carries o a' b') ∧
      Assembly.pushAll 0 b' (.plain ')' :: tail) = result := by
  induction ts generalizing skip a b with
  | nil =>
    obtain rfl : skip = 0 := by simpa using hskip
    rw [Assembly.pushAll] at ha
    obtain rfl := Except.ok.inj ha
    exact ⟨b, h, fun _ hc => hc, hb⟩
  | cons t ts ih =>
    cases skip with
    | succ skip => exact ih (by simpa using hskip) h ha hb
    | zero =>
      obtain ⟨lexeme, rest, a₁, b₁, hs, -, ha₁, hb₁, hl, ha, hb⟩ := h.lexeme hne ha hf hr hb
      obtain ⟨b', hw, hc, hread⟩ :=
        ih (Nat.sub_le _ _) (h.pushed hne hbase hs ha₁ hb₁) ha hb
      refine ⟨b', hw, ?_, hread⟩
      intro hall hcarries
      rw [hl, List.all_cons, Bool.and_eq_true, Bool.not_eq_true'] at hall
      exact hc hall.2 (hcarries.pushed h hne hbase hs hall.1 ha₁ hb₁)

end Assembly

end PathRouting.Regex
