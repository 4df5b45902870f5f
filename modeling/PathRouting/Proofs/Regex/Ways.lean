import PathRouting.Regex.Matching

/-!
# Matching as a search through a list

The places where an expression can end, in the order of preference, do not depend on what has
to match behind it. Matching goes through them one after another.
-/
namespace PathRouting.Regex

/-- The places where a step can end, in the order in which they are tried. -/
abbrev Walk := Cursor → List Cursor

namespace Walk

/-- The step that tries the places of a walk one after another. -/
def step (w : Walk) : Step := fun c k => (w c).findSome? k

def times (w : Walk) : Nat → Walk
  | 0, c => [c]
  | n + 1, c => (w c).flatMap (times w n)

def greedy (w : Walk) : Nat → Option Nat → Option Nat → Walk
  | 0, _, _, c => [c]
  | fuel + 1, room, last, c =>
    if room = some 0 || last = some c.position then [c]
    else (w c).flatMap (greedy w fuel (room.map (· - 1)) (some c.position)) ++ [c]

def lazy (w : Walk) : Nat → Option Nat → Option Nat → Walk
  | 0, _, _, c => [c]
  | fuel + 1, room, last, c =>
    c :: if room = some 0 || last = some c.position then []
      else (w c).flatMap (lazy w fuel (room.map (· - 1)) (some c.position))

/-- A repetition in a style, at least and at most a number of times. -/
def repeated (w : Walk) (style : Style) (least : Nat) (most : Option Nat) : Walk := fun c =>
  let room := most.map (· - least)
  match style with
  | .greedy => (w.times least c).flatMap fun d => w.greedy (rounds d) room none d
  | .lazy => (w.times least c).flatMap fun d => w.lazy (rounds d) room none d
  | .possessive =>
    ((w.step.firstTimes least c).map fun d => w.step.firstGreedy (rounds d) room d).toList

theorem findSome_flatMap (l : List Cursor) (w : Walk) (k : Cursor → Option Cursor) :
    (l.flatMap w).findSome? k = l.findSome? fun d => (w d).findSome? k := by
  induction l with
  | nil => rfl
  | cons d l ih =>
    rw [List.flatMap_cons, List.findSome?_append, ih, List.findSome?_cons]
    cases (w d).findSome? k <;> rfl

theorem step_times (w : Walk) (n : Nat) : w.step.times n = (w.times n).step := by
  induction n with
  | zero =>
    funext c k
    simp [Step.times, step, times]
  | succ n ih =>
    funext c k
    simp only [Step.times, ih, step, times, findSome_flatMap]

theorem step_greedy (w : Walk) (k : Cursor → Option Cursor) (fuel : Nat) :
    ∀ room last c, w.step.greedy k fuel room last c = (w.greedy fuel room last c).findSome? k := by
  induction fuel with
  | zero =>
    intro room last c
    simp [Step.greedy, greedy]
  | succ fuel ih =>
    intro room last c
    rw [Step.greedy, greedy]
    split
    · simp
    · simp only [step, ih, List.findSome?_append, findSome_flatMap]
      cases (w c).findSome? _ <;> simp

theorem step_lazy (w : Walk) (k : Cursor → Option Cursor) (fuel : Nat) :
    ∀ room last c, w.step.lazy k fuel room last c = (w.lazy fuel room last c).findSome? k := by
  induction fuel with
  | zero =>
    intro room last c
    simp [Step.lazy, lazy]
  | succ fuel ih =>
    intro room last c
    rw [Step.lazy, lazy, List.findSome?_cons]
    cases k c with
    | some r => rfl
    | none =>
      dsimp only
      split
      · rfl
      · simp only [step, ih, findSome_flatMap]

theorem step_repeated (w : Walk) (style : Style) (least : Nat) (most : Option Nat) :
    style.run least most w.step = (w.repeated style least most).step := by
  funext c k
  cases style with
  | greedy =>
    simp only [Style.run, step_times, step, repeated, findSome_flatMap, ← step_greedy]
  | lazy =>
    simp only [Style.run, step_times, step, repeated, findSome_flatMap, ← step_lazy]
  | possessive =>
    simp only [Style.run, step, repeated]
    cases w.step.firstTimes least c <;> simp

end Walk

/-- The places at which a condition on the text around a place lets matching go on. -/
def lookWays (negated : Bool) (c : Cursor) (found : Option Cursor) : List Cursor :=
  match found with
  | some d => if negated then [] else [c.withGroupsOf d]
  | none => if negated then [c] else []

/-- The places where an expression can end, in the order in which they are tried. -/
def Node.ways : Node → Mode → Walk
  | .empty, _, c => [c]
  | .literal code, mode, c => (c.advance? (literalHolds mode code)).toList
  | .any, mode, c => (c.advance? fun x => mode.dotAll || x != '\n').toList
  | .oneOf negated items, mode, c => (c.advance? (setHolds mode negated items)).toList
  | .anchor kind, mode, c => if kind.holds mode c then [c] else []
  | .backreference number, mode, c =>
    ((c.captured? number).bind fun text => c.advanceAll? (sameCharacter mode) text).toList
  | .sequence x y, mode, c => (x.ways mode c).flatMap (y.ways mode)
  | .choice x y, mode, c => x.ways mode c ++ y.ways mode c
  | .group none body, mode, c => body.ways mode c
  | .group (some number) body, mode, c =>
    (body.ways mode (c.enter number)).map (Cursor.leave number)
  | .scoped added removed body, mode, c => body.ways (mode.within added removed) c
  | .atomic body, mode, c => (body.ways mode c).head?.toList
  | .look behind negated body, mode, c =>
    let w := body.ways mode
    lookWays negated c (if behind then endingAt w.step c else (w c).head?)
  | .conditional number yes no, mode, c =>
    if (c.bounds? number).isSome then yes.ways mode c else no.ways mode c
  | .repetition style least most body, mode, c => (body.ways mode).repeated style least most c

theorem findSome_toList (o : Option Cursor) (k : Cursor → Option Cursor) :
    o.toList.findSome? k = o.bind k := by
  cases o <;> simp

theorem findSome_some (l : List Cursor) : l.findSome? some = l.head? := by
  cases l <;> simp

/-- Matching an expression goes through the places where it can end. -/
theorem Node.run_eq_step (x : Node) : ∀ mode, x.run mode = (x.ways mode).step := by
  induction x with
  | empty => intro mode; funext c k; simp [run, Walk.step, ways]
  | literal code => intro mode; funext c k; simp only [run, Walk.step, ways, findSome_toList]
  | any => intro mode; funext c k; simp only [run, Walk.step, ways, findSome_toList]
  | oneOf negated items =>
    intro mode
    funext c k
    simp only [run, Walk.step, ways, findSome_toList]
  | anchor kind =>
    intro mode
    funext c k
    simp only [run, Walk.step, ways]
    split <;> simp
  | backreference number =>
    intro mode
    funext c k
    simp only [run, Walk.step, ways, findSome_toList, Option.bind_assoc]
  | sequence x y ihx ihy =>
    intro mode
    funext c k
    simp only [run, ihx, ihy, Walk.step, ways, Walk.findSome_flatMap]
  | choice x y ihx ihy =>
    intro mode
    funext c k
    simp only [run, ihx, ihy, Walk.step, ways, List.findSome?_append]
    cases (x.ways mode c).findSome? k <;> simp
  | group number body ih =>
    intro mode
    funext c k
    cases number with
    | none => simp only [run, ih, Walk.step, ways]
    | some number => simp only [run, ih, Walk.step, ways, List.findSome?_map, Function.comp_def]
  | «scoped» added removed body ih =>
    intro mode
    funext c k
    simp only [run, ih, Walk.step, ways]
  | atomic body ih =>
    intro mode
    funext c k
    simp only [run, ih, Walk.step, ways, findSome_some, findSome_toList]
  | look behind negated body ih =>
    intro mode
    funext c k
    simp only [run, ih, ways, Walk.step, findSome_some]
    generalize (if behind = true then _ else _) = found
    cases found <;> cases negated <;> simp [afterLook, lookWays]
  | conditional number yes no ihy ihn =>
    intro mode
    funext c k
    simp only [run, ihy, ihn, Walk.step, ways]
    split <;> rfl
  | repetition style least most body ih =>
    intro mode
    funext c k
    rw [run, ih mode, Walk.step_repeated]
    rfl

theorem Node.run_eq_findSome (x : Node) (mode : Mode) (c : Cursor)
    (k : Cursor → Option Cursor) : x.run mode c k = (x.ways mode c).findSome? k := by
  rw [run_eq_step]
  rfl

end PathRouting.Regex
