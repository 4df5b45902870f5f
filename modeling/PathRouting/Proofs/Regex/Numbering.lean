import PathRouting.Proofs.Regex.Pushing

/-!
# The numbers of capturing groups

Capturing groups are numbered by their opening brackets. Every number up to the count of groups
is given once, and in this order.
-/
namespace PathRouting.Regex

/-- The numbers of the capturing groups of an expression, in the order of their brackets. -/
def Node.numbers : Node → List Nat
  | .empty | .literal _ | .any | .oneOf .. | .anchor _ | .backreference _ => []
  | .sequence x y | .choice x y | .conditional _ x y => x.numbers ++ y.numbers
  | .group none body => body.numbers
  | .group (some number) body => number :: body.numbers
  | .scoped _ _ body | .atomic body | .look _ _ body | .repetition _ _ _ body => body.numbers

theorem Node.numbers_of_isSimple {x : Node} (h : x.isSimple = true) : x.numbers = [] := by
  cases x <;> first | rfl | cases h

@[simp] theorem Node.numbers_ofList (xs : List Node) :
    (ofList xs).numbers = xs.flatMap numbers := by
  induction xs with
  | nil => rfl
  | cons x xs ih =>
    cases xs with
    | nil => simp [ofList]
    | cons y ys =>
      have hc : (ofList (x :: y :: ys)).numbers = x.numbers ++ (ofList (y :: ys)).numbers := rfl
      simp only [hc, ih, List.flatMap_cons]

@[simp] theorem Node.numbers_ofAlternatives (xs : List Node) :
    (ofAlternatives xs).numbers = xs.flatMap numbers := by
  induction xs with
  | nil => rfl
  | cons x xs ih =>
    cases xs with
    | nil => simp [ofAlternatives]
    | cons y ys =>
      have hc : (ofAlternatives (x :: y :: ys)).numbers =
        x.numbers ++ (ofAlternatives (y :: ys)).numbers := rfl
      simp only [hc, ih, List.flatMap_cons]

def Level.numbers (l : Level) : List Nat :=
  l.alternatives.reverse.flatMap Node.numbers ++ l.items.reverse.flatMap Node.numbers

/-- The numbers given by an open bracket and what is finished behind it. -/
def Bracket.numbers : Bracket → List Nat
  | .capture number => [number]
  | .conditional _ (some yes) => yes.numbers
  | _ => []

def Frame.numbers (f : Frame) : List Nat := f.outer.numbers ++ f.bracket.numbers

namespace Assembly

def numbers (a : Assembly) : List Nat :=
  a.frames.reverse.flatMap Frame.numbers ++ a.level.numbers

theorem numbers_node (l : Level) : l.node.numbers = l.numbers := by
  simp [Level.node, Level.current, Level.numbers]

theorem numbers_enter (a : Assembly) (bracket : Bracket) (here : Nat) (verbose : Bool) :
    (a.enter bracket here verbose).numbers = a.numbers ++ bracket.numbers := by
  simp [enter, numbers, Frame.numbers, Level.empty, Level.numbers]

theorem numbers_append (a : Assembly) (x : Node) :
    (a.append x).numbers = a.numbers ++ x.numbers := by
  simp [append, numbers, Level.numbers]

theorem numbers_leave {a : Assembly} {bracket : Bracket} {openedAt : Nat} {outer : Level}
    {frames : List Frame} (h : a.frames = ⟨bracket, openedAt, outer⟩ :: frames) {x : Node}
    (hx : x.numbers.Sublist (bracket.numbers ++ a.level.numbers)) :
    (a.leave outer frames x).numbers.Sublist a.numbers := by
  have hl : (a.leave outer frames x).numbers =
      frames.reverse.flatMap Frame.numbers ++ (outer.numbers ++ x.numbers) := by
    simp [leave, numbers, Level.numbers]
  have ha : a.numbers = frames.reverse.flatMap Frame.numbers ++
      (outer.numbers ++ (bracket.numbers ++ a.level.numbers)) := by
    simp [numbers, h, Frame.numbers]
  rw [hl, ha]
  exact (hx.append_left _).append_left _

/-- Every number is given at most once, in order and among the groups. -/
def Numbered (a : Assembly) : Prop := a.numbers.Sublist (List.range' 1 a.groups.length)

theorem numbers_close (bracket : Bracket) (l : Level) :
    (bracket.close l).numbers.Sublist (bracket.numbers ++ l.numbers) := by
  have hc : l.current.numbers.Sublist l.numbers := by
    simp [Level.current, Level.numbers]
  cases bracket with
  | conditional number yes =>
    cases yes with
    | none => simpa [Bracket.close, Bracket.numbers, Node.numbers] using hc
    | some yes => simpa [Bracket.close, Bracket.numbers, Node.numbers] using hc
  | _ => simp [Bracket.close, Bracket.numbers, Node.numbers, numbers_node]

variable {a b : Assembly}

theorem numbers_opens {kind : Opening} {bracket : Bracket} {names : List (String × Nat)}
    (h : Opens a kind bracket names) :
    List.range' 1 (a.groups ++ bracket.opened).length =
      List.range' 1 a.groups.length ++ bracket.numbers := by
  cases h with
  | capture => simp [Bracket.opened, Bracket.numbers, List.range'_1_concat, Nat.add_comm]
  | named => simp [Bracket.opened, Bracket.numbers, List.range'_1_concat, Nat.add_comm]
  | _ => simp [Bracket.opened, Bracket.numbers]

theorem Numbered.append (ha : Numbered a) {x : Node} (hx : x.numbers = []) :
    Numbered (a.append x) := by
  unfold Numbered
  rw [numbers_append, hx, List.append_nil]
  exact ha

theorem Numbered.pushed {lexeme : Lexeme} (hs : lexeme.isSimple = true) (h : Pushed a lexeme b)
    (ha : Numbered a) : Numbered b := by
  cases h with
  | blank => exact ha
  | node x => exact ha.append (Node.numbers_of_isSimple hs)
  | numbered number digits => exact ha.append rfl
  | named hl => exact ha.append rfl
  | quantifier style least most hi =>
    simpa [Numbered, numbers, Level.numbers, hi, Node.numbers] using ha
  | opening here asked limit ho =>
    unfold Numbered at ha ⊢
    rw [numbers_enter]
    have hl := numbers_opens ho
    exact hl ▸ ha.append_right _
  | flags added hf hl hi => simp [Numbered, numbers, hf, Level.empty, Level.numbers]
  | bar => simpa [Numbered, numbers, Level.numbers, Level.current] using ha
  | branch hf =>
    refine List.Sublist.trans ?_ ha
    simp [numbers, hf, Frame.numbers, Bracket.numbers, Level.empty, Level.numbers, Level.current]
  | close limit hf hg =>
    have hc := numbers_leave hf (numbers_close _ _)
    have hs := hc.trans ha
    rw [← hg] at hs
    exact hs

theorem numbered_start : Numbered start := by
  simp [Numbered, numbers, start, Level.empty, Level.numbers]

end Assembly

/-- The groups of an expression are numbered in the order of their brackets, and no number is
above the count of groups. -/
theorem numbers_ofChars [CharacterNames] {source : List Char} {e : Expression}
    (h : ofChars source = .ok e) : e.root.numbers.Sublist (List.range' 1 e.groups) := by
  obtain ⟨-, a, ha, hf, rfl⟩ := ofChars_ok h
  have hn : a.Numbered := Assembly.pushAll_keeps Assembly.Numbered.pushed ha Assembly.numbered_start
  simpa [Assembly.Numbered, Assembly.numbers, hf, Assembly.numbers_node] using hn

end PathRouting.Regex
