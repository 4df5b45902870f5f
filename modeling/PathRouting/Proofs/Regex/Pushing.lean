import PathRouting.Proofs.Regex.Simple
import PathRouting.Regex.Assembly

/-!
# What a lexeme does to an assembly

Each lexeme that is taken changes an assembly in one way. What is proved about assemblies is
proved by these ways, and not by the definitions of the single steps.
-/
namespace PathRouting.Regex

/-- The expression that an open bracket becomes with what was read behind it. -/
def Bracket.close (l : Level) : Bracket → Node
  | .capture number => .group (some number) l.node
  | .plain => .group none l.node
  | .atomic => .atomic l.node
  | .look behind negated _ => .look behind negated l.node
  | .conditional number none => .conditional number l.current .empty
  | .conditional number (some yes) => .conditional number yes l.current
  | .scoped added removed => .scoped added removed l.node

def Bracket.opened : Bracket → List (Option Width)
  | .capture _ => [none]
  | _ => []

def Bracket.isConditional : Bracket → Bool
  | .conditional .. => true
  | _ => false

/-- Whether blanks are skipped behind what opens a bracket. -/
def Opening.verbose (before : Bool) : Opening → Bool
  | .scoped added removed => Mode.combine before .verbose added removed
  | _ => before

/-- A mistake in a text, as against a text that is beyond what can be read at all. -/
inductive Failure.IsMistake : Failure → Prop where
  | intro (kind : Mistake) (remaining back : Nat) : IsMistake (.mistake kind remaining back)

theorem isMistake_of_error {α : Type} {kind : Mistake} {remaining back : Nat} {e : Failure}
    (h : (.error (.mistake kind remaining back) : Except Failure α) = .error e) : e.IsMistake := by
  obtain rfl := Except.error.inj h
  exact .intro ..

namespace Assembly

/-- The bracket that an opening puts down, with the names known behind it. -/
inductive Opens (a : Assembly) : Opening → Bracket → List (String × Nat) → Prop where
  | capture : Opens a (.capture none) (.capture (a.groups.length + 1)) a.names
  | named (name : String) : Opens a (.capture (some name)) (.capture (a.groups.length + 1))
      ((name, a.groups.length + 1) :: a.names)
  | plain : Opens a .plain .plain a.names
  | atomic : Opens a .atomic .atomic a.names
  | look (behind negated nested : Bool) :
      Opens a (.look behind negated) (.look behind negated nested) a.names
  | byName {name : String} {number : Nat} (length : Nat) :
      a.names.lookup name = some number →
      Opens a (.conditional (.name name) length) (.conditional number none) a.names
  | byNumber (number length : Nat) :
      Opens a (.conditional (.number number) length) (.conditional number none) a.names
  | scoped (added removed : List Flag) :
      Opens a (.scoped added removed) (.scoped added removed) a.names

/-- The ways in which a lexeme that is taken changes an assembly. -/
inductive Pushed (a : Assembly) : Lexeme → Assembly → Prop where
  | blank : Pushed a .blank a
  | node (x : Node) : Pushed a (.node x) (a.append x)
  | numbered (number digits : Nat) :
      Pushed a (.numbered number digits) (a.append (.backreference number))
  | named {name : String} {number : Nat} : a.names.lookup name = some number →
      Pushed a (.named name) (a.append (.backreference number))
  | quantifier (style : Style) (least : Nat) (most : Option Nat) {x : Node}
      {items : List Node} : a.level.items = x :: items →
      Pushed a (.quantifier style least most)
        { a with level := { a.level with items := .repetition style least most x :: items } }
  | opening {kind : Opening} {bracket : Bracket} {names : List (String × Nat)} (here : Nat)
      (asked : List (Nat × Nat)) (limit : Option Nat) : Opens a kind bracket names →
      Pushed a (.opening kind)
        ({ a with groups := a.groups ++ bracket.opened, names := names, asked := asked
                  behindLimit := limit }.enter bracket here (kind.verbose a.level.verbose))
  | flags (added : List Flag) : a.frames = [] → a.level.alternatives = [] → a.level.items = [] →
      Pushed a (.flags added) { a with flags := a.flags ++ added
                                       level := .empty ((a.flags ++ added).contains .verbose) }
  | bar : (∀ frame ∈ a.frames.head?, frame.bracket.isConditional = false) →
      Pushed a .bar
        { a with level := ⟨a.level.current :: a.level.alternatives, [], a.level.verbose⟩ }
  | branch {number openedAt : Nat} {outer : Level} {frames : List Frame} :
      a.frames = ⟨.conditional number none, openedAt, outer⟩ :: frames →
      Pushed a .bar
        { a with
          frames := ⟨.conditional number (some a.level.current), openedAt, outer⟩ :: frames
          level := .empty a.level.verbose }
  | close {bracket : Bracket} {openedAt : Nat} {outer : Level} {frames : List Frame}
      {groups : List (Option Width)} (limit : Option Nat) :
      a.frames = ⟨bracket, openedAt, outer⟩ :: frames → groups.length = a.groups.length →
      Pushed a .close
        ({ a with groups := groups, behindLimit := limit }.leave outer frames
          (bracket.close a.level))

theorem checkBehind_bind_ok {a b : Assembly} {number : Nat} {rest : List Token}
    {next : Except Failure Assembly} (h : (do a.checkBehind number rest; next) = .ok b) :
    next = .ok b := by
  obtain ⟨_, -, h⟩ := bind_eq_ok.mp h
  exact h

variable {a b : Assembly} {rest : List Token} {here : Nat}

theorem pushNumbered_ok {number digits : Nat} (h : a.pushNumbered number digits rest = .ok b) :
    Pushed a (.numbered number digits) b := by
  unfold pushNumbered at h
  split at h
  · cases h
  · split at h
    · cases h
    · obtain rfl := Except.ok.inj (checkBehind_bind_ok h)
      exact .numbered number digits

theorem pushNamed_ok {name : String} (h : a.pushNamed name rest = .ok b) :
    Pushed a (.named name) b := by
  unfold pushNamed at h
  split at h
  · cases h
  · rename_i number hn
    split at h
    · cases h
    · obtain rfl := Except.ok.inj (checkBehind_bind_ok h)
      exact .named hn

theorem pushQuantifier_ok {style : Style} {least : Nat} {most : Option Nat}
    (h : a.pushQuantifier here style least most rest = .ok b) :
    Pushed a (.quantifier style least most) b := by
  unfold pushQuantifier at h
  dsimp only at h
  split at h
  · cases h
  · rename_i x items hi
    split at h
    · cases h
    · split at h
      · cases h
      · obtain rfl := Except.ok.inj h
        exact .quantifier style least most hi

theorem enterCapture_ok {name : Option String} (h : a.enterCapture name here rest = .ok b) :
    Pushed a (.opening (.capture name)) b := by
  unfold enterCapture at h
  dsimp only at h
  cases name with
  | none =>
    obtain rfl := Except.ok.inj h
    exact .opening here a.asked a.behindLimit .capture
  | some name =>
    dsimp only at h
    split at h
    · cases h
    · obtain rfl := Except.ok.inj h
      exact .opening here a.asked a.behindLimit (.named name)

theorem resolve_ok {key : GroupKey} {length number : Nat}
    (h : a.resolve key length rest = .ok (b, number)) :
    ∃ asked, b = { a with asked := asked } ∧
      Opens a (.conditional key length) (.conditional number none) a.names := by
  unfold resolve at h
  cases key with
  | name name =>
    dsimp only at h
    split at h
    · cases h
    · rename_i k hk
      obtain ⟨rfl, rfl⟩ := Prod.mk.inj (Except.ok.inj h)
      exact ⟨a.asked, rfl, .byName length hk⟩
  | number k =>
    dsimp only at h
    split at h
    · obtain ⟨rfl, rfl⟩ := Prod.mk.inj (Except.ok.inj h)
      exact ⟨a.asked, rfl, .byNumber k length⟩
    · obtain ⟨rfl, rfl⟩ := Prod.mk.inj (Except.ok.inj h)
      exact ⟨_, rfl, .byNumber k length⟩

theorem pushOpening_ok {kind : Opening} (h : a.pushOpening kind here rest = .ok b) :
    Pushed a (.opening kind) b := by
  have heq : ∀ {bracket : Bracket} {asked : List (Nat × Nat)} {limit : Option Nat},
      bracket.opened = [] → Opens a kind bracket a.names →
      Pushed a (.opening kind) ({ a with asked := asked, behindLimit := limit }.enter bracket here
        (kind.verbose a.level.verbose)) := by
    intro bracket asked limit ho hk
    have hp := Pushed.opening here asked limit hk
    rw [ho, List.append_nil] at hp
    exact hp
  cases kind with
  | capture name => exact enterCapture_ok h
  | plain =>
    obtain rfl := Except.ok.inj h
    exact heq rfl .plain
  | atomic =>
    obtain rfl := Except.ok.inj h
    exact heq rfl .atomic
  | look behind negated =>
    obtain rfl := Except.ok.inj h
    exact heq rfl (.look behind negated _)
  | conditional key length =>
    rw [pushOpening] at h
    obtain ⟨⟨c, number⟩, hr, h⟩ := bind_eq_ok.mp h
    obtain ⟨asked, rfl, hk⟩ := resolve_ok hr
    obtain rfl := Except.ok.inj (checkBehind_bind_ok h)
    exact heq rfl hk
  | «scoped» added removed =>
    obtain rfl := Except.ok.inj h
    exact heq rfl (.scoped added removed)

theorem pushFlags_ok {added : List Flag} (h : a.pushFlags added here rest = .ok b) :
    Pushed a (.flags added) b := by
  unfold pushFlags at h
  dsimp only at h
  split at h
  · rename_i he
    simp only [Bool.and_eq_true, List.isEmpty_iff] at he
    obtain rfl := Except.ok.inj h
    exact .flags added he.1.1 he.1.2 he.2
  · cases h

theorem pushBar_ok (h : a.pushBar here = .ok b) : Pushed a .bar b := by
  unfold pushBar at h
  split at h
  · rename_i number yes openedAt outer frames hf
    split at h
    · cases h
    · obtain rfl := Except.ok.inj h
      exact .branch hf
  · rename_i hf
    obtain rfl := Except.ok.inj h
    refine .bar ?_
    intro frame hm
    obtain ⟨frames, hm⟩ := List.head?_eq_some_iff.mp hm
    obtain ⟨bracket, openedAt, outer⟩ := frame
    cases bracket with
    | conditional number yes => exact absurd hm (hf number yes openedAt outer frames)
    | _ => rfl

theorem pushClose_ok (h : a.pushClose here = .ok b) : Pushed a .close b := by
  unfold pushClose at h
  split at h
  · split at h <;> cases h
  · rename_i bracket openedAt outer frames hf
    dsimp only at h
    split at h
    · obtain rfl := Except.ok.inj h
      exact .close a.behindLimit hf (by simp)
    · obtain rfl := Except.ok.inj h
      exact .close a.behindLimit hf rfl
    · obtain rfl := Except.ok.inj h
      exact .close a.behindLimit hf rfl
    · obtain rfl := Except.ok.inj h
      exact .close _ hf rfl
    · obtain rfl := Except.ok.inj h
      exact .close a.behindLimit hf rfl
    · obtain rfl := Except.ok.inj h
      exact .close a.behindLimit hf rfl
    · obtain rfl := Except.ok.inj h
      exact .close a.behindLimit hf rfl

theorem push_ok {lexeme : Lexeme} (h : a.push lexeme here rest = .ok b) : Pushed a lexeme b := by
  cases lexeme with
  | blank =>
    obtain rfl := Except.ok.inj h
    exact .blank
  | node x =>
    obtain rfl := Except.ok.inj h
    exact .node x
  | numbered number digits => exact pushNumbered_ok h
  | named name => exact pushNamed_ok h
  | quantifier style least most => exact pushQuantifier_ok h
  | opening kind => exact pushOpening_ok h
  | flags added => exact pushFlags_ok h
  | bar => exact pushBar_ok h
  | close => exact pushClose_ok h

/-! ## Lexemes that cannot be taken -/

theorem checkBehind_error {number : Nat} {e : Failure}
    (h : a.checkBehind number rest = .error e) : e.IsMistake := by
  unfold checkBehind at h
  split at h
  · cases h
  · split at h
    · exact isMistake_of_error h
    · split at h
      · exact isMistake_of_error h
      · cases h

theorem checkBehind_bind_error {number : Nat} {next : Assembly} {e : Failure}
    (h : (do a.checkBehind number rest; return next) = Except.error e) : e.IsMistake := by
  rcases bind_eq_error.mp h with h | ⟨_, -, h⟩
  · exact checkBehind_error h
  · cases h

theorem pushNumbered_error {number digits : Nat} {e : Failure}
    (h : a.pushNumbered number digits rest = .error e) : e.IsMistake := by
  unfold pushNumbered at h
  split at h
  · exact isMistake_of_error h
  · split at h
    · exact isMistake_of_error h
    · exact checkBehind_bind_error h

theorem pushNamed_error {name : String} {e : Failure}
    (h : a.pushNamed name rest = .error e) : e.IsMistake := by
  unfold pushNamed at h
  split at h
  · exact isMistake_of_error h
  · split at h
    · exact isMistake_of_error h
    · exact checkBehind_bind_error h

theorem pushQuantifier_error {style : Style} {least : Nat} {most : Option Nat} {e : Failure}
    (h : a.pushQuantifier here style least most rest = .error e) : e.IsMistake := by
  unfold pushQuantifier at h
  dsimp only at h
  split at h
  · exact isMistake_of_error h
  · split at h
    · exact isMistake_of_error h
    · split at h
      · exact isMistake_of_error h
      · cases h

theorem enterCapture_error {name : Option String} {e : Failure}
    (h : a.enterCapture name here rest = .error e) : e.IsMistake := by
  unfold enterCapture at h
  dsimp only at h
  split at h
  · cases h
  · split at h
    · exact isMistake_of_error h
    · cases h

theorem resolve_error {key : GroupKey} {length : Nat} {e : Failure}
    (h : a.resolve key length rest = .error e) : e.IsMistake := by
  unfold resolve at h
  split at h
  · split at h
    · exact isMistake_of_error h
    · cases h
  · split at h <;> cases h

theorem pushOpening_error {kind : Opening} {e : Failure}
    (h : a.pushOpening kind here rest = .error e) : e.IsMistake := by
  cases kind with
  | capture name => exact enterCapture_error h
  | conditional key length =>
    rcases bind_eq_error.mp h with h | ⟨_, -, h⟩
    · exact resolve_error h
    · exact checkBehind_bind_error h
  | _ => cases h

theorem pushBar_error {e : Failure} (h : a.pushBar here = .error e) : e.IsMistake := by
  unfold pushBar at h
  split at h
  · split at h
    · exact isMistake_of_error h
    · cases h
  · cases h

theorem push_error {lexeme : Lexeme} {e : Failure} (hf : a.frames ≠ [])
    (h : a.push lexeme here rest = .error e) : e.IsMistake := by
  cases lexeme with
  | blank => cases h
  | node x => cases h
  | numbered number digits => exact pushNumbered_error h
  | named name => exact pushNamed_error h
  | quantifier style least most => exact pushQuantifier_error h
  | opening kind => exact pushOpening_error h
  | flags added =>
    simp only [push, pushFlags, List.isEmpty_eq_false_iff.mpr hf, Bool.false_and,
      Bool.false_eq_true, if_false] at h
    exact isMistake_of_error h
  | bar => exact pushBar_error h
  | close =>
    rw [push, pushClose] at h
    split at h
    · exact absurd ‹a.frames = []› hf
    · dsimp only at h
      split at h <;> cases h

/-! ## All lexemes -/

/-- What every lexeme keeps that can be read is kept by all tokens. -/
theorem pushAll_keeps [CharacterNames] {motive : Assembly → Prop}
    (step : ∀ {a b : Assembly} {lexeme : Lexeme}, lexeme.isSimple = true → Pushed a lexeme b →
      motive a → motive b) {skip : Nat} {a b : Assembly} {ts : List Token}
    (h : pushAll skip a ts = .ok b) (ha : motive a) : motive b := by
  induction ts generalizing skip a with
  | nil =>
    rw [pushAll] at h
    obtain rfl := Except.ok.inj h
    exact ha
  | cons t ts ih =>
    cases skip with
    | succ skip => exact ih h ha
    | zero =>
      rw [pushAll] at h
      split at h
      · cases h
      · rename_i lexeme rest hl
        split at h
        · cases h
        · rename_i c hc
          exact ih h (step (readLexeme_isSimple hl) (push_ok hc) ha)

theorem finish_ok {a : Assembly} {length : Nat} {e : Expression} (h : a.finish length = .ok e) :
    a.frames = [] ∧ e = ⟨a.level.node, a.groups.length⟩ := by
  unfold finish at h
  split at h
  · cases h
  · rename_i hf
    split at h
    · cases h
    · split at h
      · cases h
      · dsimp only at h
        split at h
        · cases h
        · exact ⟨hf, (Except.ok.inj h).symm⟩

end Assembly

theorem ofChars_ok [CharacterNames] {source : List Char} {e : Expression}
    (h : ofChars source = .ok e) : (Token.ofChars source).2 = false ∧
      ∃ a, Assembly.start.pushAll 0 (Token.ofChars source).1 = .ok a ∧
        a.frames = [] ∧ e = ⟨a.level.node, a.groups.length⟩ := by
  unfold ofChars at h
  dsimp only at h
  split at h
  · split at h <;> cases h
  · rename_i a ha
    split at h
    · cases h
    · rename_i hd
      exact ⟨Bool.not_eq_true _ ▸ hd, a, ha, Assembly.finish_ok h⟩

end PathRouting.Regex
