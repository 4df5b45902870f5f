import Mathlib.Data.List.Forall2
import PathRouting.Proofs.Regex.Locality
import PathRouting.Proofs.Regex.Numbering
import PathRouting.Regex.SelfContained

/-!
# Expressions inside others

What can be read on its own is read in the same way between the brackets of a capturing group:
the structure is the same, and the groups are numbered onwards. Nothing in it can close the
bracket around it.
-/
namespace PathRouting.Regex

/-- A reference to a group is moved with the group, or left as it is. -/
def Refers (n k m : Nat) : Prop := m = k ∨ m = k + n

/-- An expression and the same expression with its groups moved by a distance. -/
inductive Node.Shifted (n : Nat) : Node → Node → Prop where
  | empty : Shifted n .empty .empty
  | simple {x : Node} : x.isSimple = true → Shifted n x x
  | backreference {k m : Nat} : Refers n k m → Shifted n (.backreference k) (.backreference m)
  | sequence {x x' y y' : Node} : Shifted n x x' → Shifted n y y' →
      Shifted n (.sequence x y) (.sequence x' y')
  | choice {x x' y y' : Node} : Shifted n x x' → Shifted n y y' →
      Shifted n (.choice x y) (.choice x' y')
  | group (number : Option Nat) {x x' : Node} : Shifted n x x' →
      Shifted n (.group number x) (.group (number.map (· + n)) x')
  | scoped (added removed : List Flag) {x x' : Node} : Shifted n x x' →
      Shifted n (.scoped added removed x) (.scoped added removed x')
  | atomic {x x' : Node} : Shifted n x x' → Shifted n (.atomic x) (.atomic x')
  | look (behind negated : Bool) {x x' : Node} : Shifted n x x' →
      Shifted n (.look behind negated x) (.look behind negated x')
  | conditional {k m : Nat} {x x' y y' : Node} : Refers n k m → Shifted n x x' →
      Shifted n y y' → Shifted n (.conditional k x y) (.conditional m x' y')
  | repetition (style : Style) (least : Nat) (most : Option Nat) {x x' : Node} :
      Shifted n x x' → Shifted n (.repetition style least most x) (.repetition style least most x')

namespace Node.Shifted

variable {n : Nat} {x y : Node} {xs ys : List Node}

theorem ofList (h : List.Forall₂ (Shifted n) xs ys) :
    Shifted n (.ofList xs) (.ofList ys) := by
  induction h with
  | nil => exact .empty
  | cons hx ht ih =>
    cases ht with
    | nil => exact hx
    | cons hy ht => exact .sequence hx ih

theorem ofAlternatives (h : List.Forall₂ (Shifted n) xs ys) :
    Shifted n (.ofAlternatives xs) (.ofAlternatives ys) := by
  induction h with
  | nil => exact .empty
  | cons hx ht ih =>
    cases ht with
    | nil => exact hx
    | cons hy ht => exact .choice hx ih

theorem numbers (h : Shifted n x y) : y.numbers = x.numbers.map (· + n) := by
  induction h with
  | empty => rfl
  | simple hs => simp [numbers_of_isSimple hs]
  | backreference => rfl
  | sequence _ _ ihx ihy => simp [Node.numbers, ihx, ihy]
  | choice _ _ ihx ihy => simp [Node.numbers, ihx, ihy]
  | group number _ ih => cases number <;> simp [Node.numbers, ih]
  | «scoped» added removed _ ih => exact ih
  | atomic _ ih => exact ih
  | look behind negated _ ih => exact ih
  | conditional _ _ _ ihx ihy => simp [Node.numbers, ihx, ihy]
  | repetition style least most _ ih => exact ih

end Node.Shifted

/-- A level and the same level with its groups moved. -/
structure Level.Shifted (n : Nat) (l l' : Level) : Prop where
  alternatives : List.Forall₂ (Node.Shifted n) l.alternatives l'.alternatives
  items : List.Forall₂ (Node.Shifted n) l.items l'.items
  verbose : l.verbose = l'.verbose

namespace Level.Shifted

variable {n : Nat} {l l' : Level} {x y : Node}

theorem empty (n : Nat) (verbose : Bool) : Shifted n (.empty verbose) (.empty verbose) :=
  ⟨.nil, .nil, rfl⟩

theorem append (h : l.Shifted n l') (hx : x.Shifted n y) :
    Shifted n { l with items := x :: l.items } { l' with items := y :: l'.items } :=
  ⟨h.alternatives, .cons hx h.items, h.verbose⟩

theorem current (h : l.Shifted n l') : l.current.Shifted n l'.current :=
  .ofList (List.rel_reverse h.items)

theorem node (h : l.Shifted n l') : l.node.Shifted n l'.node :=
  .ofAlternatives (List.rel_reverse (.cons h.current h.alternatives))

end Level.Shifted

/-- An open bracket and the same bracket with its groups moved. -/
inductive Bracket.Shifted (n : Nat) : Bracket → Bracket → Prop where
  | capture (number : Nat) : Shifted n (.capture number) (.capture (number + n))
  | plain : Shifted n .plain .plain
  | atomic : Shifted n .atomic .atomic
  | look (behind negated nested nested' : Bool) :
      Shifted n (.look behind negated nested) (.look behind negated nested')
  | condition {k m : Nat} : Refers n k m → Shifted n (.conditional k none) (.conditional m none)
  | branch {k m : Nat} {x y : Node} : Refers n k m → x.Shifted n y →
      Shifted n (.conditional k (some x)) (.conditional m (some y))
  | scoped (added removed : List Flag) : Shifted n (.scoped added removed) (.scoped added removed)

theorem Bracket.Shifted.isConditional {n : Nat} {x y : Bracket} (h : x.Shifted n y) :
    y.isConditional = x.isConditional := by
  cases h <;> rfl

theorem Bracket.Shifted.close {n : Nat} {x y : Bracket} {l l' : Level} (h : x.Shifted n y)
    (hl : l.Shifted n l') : (x.close l).Shifted n (y.close l') := by
  cases h with
  | capture number => exact .group (some number) hl.node
  | plain => exact .group none hl.node
  | atomic => exact .atomic hl.node
  | look behind negated nested nested' => exact .look behind negated hl.node
  | condition hr => exact .conditional hr hl.current .empty
  | branch hr hx => exact .conditional hr hx hl.current
  | «scoped» added removed => exact .scoped added removed hl.node

/-- A frame and the same frame with its groups moved. -/
structure Frame.Shifted (n : Nat) (f f' : Frame) : Prop where
  bracket : f.bracket.Shifted n f'.bracket
  outer : f.outer.Shifted n f'.outer

namespace Assembly

/-- Whether blanks are skipped, at every level from the innermost to the outermost. -/
def verbosities (a : Assembly) : List Bool :=
  a.level.verbose :: a.frames.map fun f => f.outer.verbose

/-- One assembly reads a text on its own, and another one reads it behind what was put together
when its outermost bracket had been opened. -/
structure Within (o a b : Assembly) : Prop where
  level : a.level.Shifted o.groups.length b.level
  frames : ∃ inner, b.frames = inner ++ o.frames ∧
    List.Forall₂ (Frame.Shifted o.groups.length) a.frames inner
  groups : b.groups.length = a.groups.length + o.groups.length
  names : b.names = a.names.map (fun p => (p.1, p.2 + o.groups.length)) ++ o.names
  flags : b.flags = o.flags
  plain : a.verbosities.getLast? = some false

namespace Within

variable {o a b a' b' : Assembly}

theorem append (h : Within o a b) {x y : Node} (hx : x.Shifted o.groups.length y) :
    Within o (a.append x) (b.append y) :=
  ⟨h.level.append hx, h.frames, h.groups, h.names, h.flags, h.plain⟩

theorem lookup (h : Within o a b) {name : String} {k m : Nat}
    (hk : a.names.lookup name = some k) (hm : b.names.lookup name = some m) :
    m = k + o.groups.length := by
  have hmap : ∀ l : List (String × Nat), l.lookup name = some k →
      (l.map (fun p => (p.1, p.2 + o.groups.length)) ++ o.names).lookup name =
        some (k + o.groups.length) := by
    intro l hl
    induction l with
    | nil => cases hl
    | cons p l ih =>
      obtain ⟨other, j⟩ := p
      rw [List.map_cons, List.cons_append, List.lookup_cons]
      rw [List.lookup_cons] at hl
      cases hp : name == other with
      | true =>
        rw [hp] at hl
        obtain rfl := Option.some.inj hl
        rfl
      | false =>
        rw [hp] at hl
        exact ih hl
  rw [h.names, hmap a.names hk] at hm
  exact (Option.some.inj hm).symm

theorem opens (h : Within o a b) {kind : Opening} {x y : Bracket}
    {known known' : List (String × Nat)} (hx : Opens a kind x known) (hy : Opens b kind y known') :
    x.Shifted o.groups.length y ∧ y.opened.length = x.opened.length ∧
      known' = known.map (fun p => (p.1, p.2 + o.groups.length)) ++ o.names := by
  have hg : b.groups.length + 1 = a.groups.length + 1 + o.groups.length := by
    rw [h.groups]
    omega
  cases hx with
  | capture =>
    cases hy with
    | capture => exact ⟨hg ▸ .capture _, rfl, h.names⟩
  | named name =>
    cases hy with
    | named => exact ⟨hg ▸ .capture _, rfl, by rw [hg, h.names]; rfl⟩
  | plain =>
    cases hy with
    | plain => exact ⟨.plain, rfl, h.names⟩
  | atomic =>
    cases hy with
    | atomic => exact ⟨.atomic, rfl, h.names⟩
  | look behind negated nested =>
    cases hy with
    | look _ _ nested' => exact ⟨.look behind negated nested nested', rfl, h.names⟩
  | byName length hk =>
    cases hy with
    | byName _ hm => exact ⟨.condition (.inr (h.lookup hk hm)), rfl, h.names⟩
  | byNumber number length =>
    cases hy with
    | byNumber => exact ⟨.condition (.inl rfl), rfl, h.names⟩
  | «scoped» added removed =>
    cases hy with
    | «scoped» => exact ⟨.scoped added removed, rfl, h.names⟩

/-- Where the text on its own leaves a bracket, the one inside leaves the same bracket. -/
theorem frames_cons (h : Within o a b) {f : Frame} {fs : List Frame}
    (hf : a.frames = f :: fs) : ∃ f' fs', b.frames = f' :: (fs' ++ o.frames) ∧
      f.Shifted o.groups.length f' ∧ List.Forall₂ (Frame.Shifted o.groups.length) fs fs' := by
  obtain ⟨inner, hb, hi⟩ := h.frames
  rw [hf] at hi
  cases hi with
  | cons hx ht => exact ⟨_, _, hb, hx, ht⟩

theorem frames_nil (h : Within o a b) (hf : a.frames = []) : b.frames = o.frames := by
  obtain ⟨inner, hb, hi⟩ := h.frames
  rw [hf] at hi
  cases hi
  exact hb

theorem isConditional_head (h : Within o a b)
    (hbase : ∀ f ∈ o.frames.head?, f.bracket.isConditional = false)
    (ha : ∀ f ∈ a.frames.head?, f.bracket.isConditional = false) :
    ∀ f ∈ b.frames.head?, f.bracket.isConditional = false := by
  cases hf : a.frames with
  | nil =>
    rw [h.frames_nil hf]
    exact hbase
  | cons f fs =>
    obtain ⟨f', fs', hb, hx, -⟩ := h.frames_cons hf
    have hc := ha f (by simp [hf])
    intro g hg
    rw [hb, List.head?_cons, Option.mem_some_iff] at hg
    subst hg
    exact hx.bracket.isConditional.trans hc

theorem pushed (h : Within o a b) (hne : o.frames ≠ [])
    (hbase : ∀ f ∈ o.frames.head?, f.bracket.isConditional = false) {lexeme : Lexeme}
    (hs : lexeme.isSimple = true) (ha : Pushed a lexeme a') (hb : Pushed b lexeme b') :
    Within o a' b' := by
  cases ha with
  | blank =>
    cases hb with
    | blank => exact h
  | node x =>
    cases hb with
    | node => exact h.append (.simple hs)
  | numbered number digits =>
    cases hb with
    | numbered => exact h.append (.backreference (.inl rfl))
  | named hk =>
    cases hb with
    | named hm => exact h.append (.backreference (.inr (h.lookup hk hm)))
  | quantifier style least most hi =>
    cases hb with
    | quantifier _ _ _ hi' =>
      have hitems := h.level.items
      rw [hi, hi'] at hitems
      obtain ⟨hx, ht⟩ := List.forall₂_cons.mp hitems
      exact ⟨⟨h.level.alternatives, .cons (.repetition style least most hx) ht, h.level.verbose⟩,
        h.frames, h.groups, h.names, h.flags, h.plain⟩
  | opening here asked limit ho =>
    cases hb with
    | opening here' asked' limit' ho' =>
      obtain ⟨hx, hl, hn⟩ := h.opens ho ho'
      obtain ⟨inner, hf, hi⟩ := h.frames
      refine ⟨?_, ⟨⟨_, here', b.level⟩ :: inner, ?_, .cons ⟨hx, h.level⟩ hi⟩, ?_, hn, h.flags, ?_⟩
      · have hv := h.level.verbose
        exact hv ▸ Level.Shifted.empty o.groups.length _
      · simp [enter, hf]
      · simp [enter, h.groups, hl]
        omega
      · have hp := h.plain
        simp only [verbosities, enter, Level.empty, List.map_cons] at hp ⊢
        rw [List.getLast?_cons_cons]
        exact hp
  | flags added hf =>
    cases hb with
    | flags _ hf' => exact absurd ((h.frames_nil hf).symm.trans hf') hne
  | bar hc =>
    cases hb with
    | bar =>
      exact ⟨⟨.cons h.level.current h.level.alternatives, .nil, h.level.verbose⟩, h.frames,
        h.groups, h.names, h.flags, h.plain⟩
    | branch hf' =>
      have hk := h.isConditional_head hbase hc _ (by rw [hf']; rfl)
      cases hk
  | branch hf =>
    obtain ⟨f', fs', hb', hx, ht⟩ := h.frames_cons hf
    cases hb with
    | bar hc =>
      have hk := hc f' (by rw [hb']; rfl)
      cases hx.bracket.isConditional.symm.trans hk
    | branch hf' =>
      rw [hb'] at hf'
      obtain ⟨rfl, rfl⟩ := List.cons.inj hf'
      cases hx.bracket with
      | condition hr =>
        refine ⟨?_, ⟨_ :: fs', rfl, .cons ⟨.branch hr h.level.current, hx.outer⟩ ht⟩, h.groups,
          h.names, h.flags, ?_⟩
        · exact h.level.verbose ▸ Level.Shifted.empty o.groups.length _
        · have hp := h.plain
          simp only [verbosities, hf, List.map_cons] at hp
          exact hp
  | close limit hf hg =>
    obtain ⟨f', fs', hb', hx, ht⟩ := h.frames_cons hf
    cases hb with
    | close limit' hf' hg' =>
      rw [hb'] at hf'
      obtain ⟨rfl, rfl⟩ := List.cons.inj hf'
      refine ⟨hx.outer.append (hx.bracket.close h.level), ⟨fs', rfl, ht⟩, ?_, h.names, h.flags,
        ?_⟩
      · simp [leave, hg, hg', h.groups]
      · have hp := h.plain
        simp only [verbosities, leave, hf, List.map_cons] at hp ⊢
        rw [List.getLast?_cons_cons] at hp
        exact hp

end Within

theorem pushAll_of_length_le [CharacterNames] {skip : Nat} {a : Assembly} {ts : List Token}
    (h : ts.length ≤ skip) : pushAll skip a ts = .ok a := by
  induction ts generalizing skip with
  | nil => rw [pushAll]
  | cons t ts ih =>
    obtain ⟨skip, rfl⟩ : ∃ k, skip = k + 1 := ⟨skip - 1, by simp at h; omega⟩
    rw [pushAll]
    exact ih (by simpa using h)

variable {o a b a' : Assembly}

theorem pushAll_cons_ok [CharacterNames] {t : Token} {ts : List Token}
    (h : pushAll 0 a (t :: ts) = .ok a') : ∃ lexeme rest next,
      readLexeme a.level.verbose t ts = .ok (lexeme, rest) ∧
      a.push lexeme (Token.extent (t :: ts)) rest = .ok next ∧
      pushAll (ts.length - rest.length) next ts = .ok a' := by
  rw [pushAll] at h
  split at h
  · cases h
  · rename_i lexeme rest hl
    split at h
    · cases h
    · rename_i next hnext
      exact ⟨lexeme, rest, next, hl, hnext, h⟩

/-- A result that no mistake in the text has brought about. -/
def Unmistaken (result : Except Failure Assembly) : Prop :=
  ∀ e, result = .error e → ¬e.IsMistake

theorem unmistaken_ok (a : Assembly) : Unmistaken (.ok a) := nofun

theorem pushAll_cons_unmistaken [CharacterNames] {t : Token} {ts rest : List Token}
    {lexeme : Lexeme} {result : Except Failure Assembly} (hf : b.frames ≠ [])
    (hl : readLexeme b.level.verbose t ts = .ok (lexeme, rest)) (hr : Unmistaken result)
    (h : pushAll 0 b (t :: ts) = result) : ∃ next,
      b.push lexeme (Token.extent (t :: ts)) rest = .ok next ∧
      pushAll (ts.length - rest.length) next ts = result := by
  rw [pushAll, hl] at h
  dsimp only at h
  cases hp : b.push lexeme (Token.extent (t :: ts)) rest with
  | error e =>
    rw [hp] at h
    exact absurd (push_error hf hp) (hr e h.symm)
  | ok next =>
    rw [hp] at h
    exact ⟨next, rfl, h⟩

/-- Side by side two assemblies take the same lexeme, and it ends before the bracket behind the
text, whatever stands there. -/
theorem Within.lexeme [CharacterNames] (hne : o.frames ≠ []) {t : Token} {ts tail : List Token}
    (h : Within o a b)
    (ha : Assembly.pushAll 0 a (t :: ts) = .ok a') (hf : a'.frames = [])
    {result : Except Failure Assembly} (hr : Unmistaken result)
    (hb : Assembly.pushAll 0 b (t :: (ts ++ .plain ')' :: tail)) = result) :
    ∃ lexeme rest a₁ b₁, lexeme.isSimple = true ∧
      (∀ more, readLexeme a.level.verbose t (ts ++ .plain ')' :: more) =
        .ok (lexeme, rest ++ .plain ')' :: more)) ∧
      Pushed a lexeme a₁ ∧ Pushed b lexeme b₁ ∧
      Assembly.lexemes 0 a (t :: ts) =
        lexeme :: Assembly.lexemes (ts.length - rest.length) a₁ ts ∧
      Assembly.pushAll (ts.length - rest.length) a₁ ts = .ok a' ∧
      Assembly.pushAll (ts.length - rest.length) b₁ (ts ++ .plain ')' :: tail) = result := by
  obtain ⟨lexeme, rest, a₁, hl, ha₁, ha⟩ := pushAll_cons_ok ha
  rcases readLexeme_append hl with ⟨hv, rfl, rfl⟩ | happend
  · -- a comment up to the end: the outermost level would have to skip blanks
    rw [Assembly.push] at ha₁
    obtain rfl := Except.ok.inj ha₁
    rw [pushAll_of_length_le (by simp)] at ha
    obtain rfl := Except.ok.inj ha
    have hp := h.plain
    simp [verbosities, hf, hv] at hp
  · have hopen : b.frames ≠ [] := by
      obtain ⟨inner, hbf, -⟩ := h.frames
      simp [hbf, hne]
    obtain ⟨b₁, hb₁, hb⟩ :=
      pushAll_cons_unmistaken hopen (h.level.verbose ▸ happend tail) hr hb
    have hs := readLexeme_isSimple hl
    have hk : (ts ++ .plain ')' :: tail).length - (rest ++ .plain ')' :: tail).length =
        ts.length - rest.length := by
      simp
      omega
    rw [hk] at hb
    refine ⟨lexeme, rest, a₁, b₁, hs, happend, push_ok ha₁, push_ok hb₁, ?_, ha, hb⟩
    rw [lexemes, hl]
    dsimp only
    rw [ha₁]

end Assembly

end PathRouting.Regex
