import PathRouting.Value.Basic

/-!
# Values as keys

Two keys are the same if they are equal as values: numbers by what they are worth whatever
their type, tuples item by item, and frozen sets by their members.
-/
namespace PathRouting.Value

/-- Integers behind whole-number types: a truth value counts as zero or one. -/
def toInt? : Value → Option Int
  | .bool b => some (if b then 1 else 0)
  | .int i => some i
  | _ => none

def isNumber : Value → Bool
  | .bool _ | .int _ | .float _ => true
  | _ => false

/-- The order of two numeric values: `none` if one is no number or not comparable. -/
def compareNumbers (x y : Value) : Option Ordering :=
  match x, y with
  | .float a, .float b => a.order? b
  | .float a, y => y.toInt?.bind fun j => a.compareRatio j 1
  | x, .float b => x.toInt?.bind fun i => (b.compareRatio i 1).map Ordering.swap
  | x, y =>
    match x.toInt?, y.toInt? with
    | some i, some j => some (compare i j)
    | _, _ => none

mutual

def sameKey : Value → Value → Bool
  | .null, .null => true
  | .str a, .str b => a == b
  | .tuple xs, .tuple ys => sameKeys xs ys
  | .frozenSet xs, .frozenSet ys => xs.length == ys.length && allAmong xs ys
  | .bool a, y => compareNumbers (.bool a) y == some .eq
  | .int a, y => compareNumbers (.int a) y == some .eq
  | .float a, y => compareNumbers (.float a) y == some .eq
  | _, _ => false

def sameKeys : List Value → List Value → Bool
  | [], [] => true
  | x :: xs, y :: ys => sameKey x y && sameKeys xs ys
  | _, _ => false

def allAmong : List Value → List Value → Bool
  | [], _ => true
  | x :: xs, ys => ys.any (fun y => sameKey x y) && allAmong xs ys

end

mutual

/-- The value inside a key that keeps it from being one, by the name of its type. -/
def unhashable? : Value → Option String
  | .list _ => some "list"
  | .set _ => some "set"
  | .mapping _ => some "dict"
  | .record _ => some "types.SimpleNamespace"
  | .tuple xs => unhashableAmong? xs
  | _ => none

def unhashableAmong? : List Value → Option String
  | [] => none
  | x :: xs => match unhashable? x with
    | some name => some name
    | none => unhashableAmong? xs

end

@[simp] theorem sameKey_str (a b : String) : sameKey (.str a) (.str b) = (a == b) := by
  simp [sameKey]

/-- The members of a set, each once and in the order of their first mention. -/
def distinct (items : List Value) : List Value :=
  items.foldl (fun seen x => if seen.any (fun y => sameKey y x) then seen else seen ++ [x]) []

end PathRouting.Value
