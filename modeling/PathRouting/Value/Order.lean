import PathRouting.Value.Key
import PathRouting.Value.Misuse

/-!
# The order of values

Texts are ordered by their characters, numbers by what they are worth, tuples at the first
place where they differ, and sets by inclusion. Values of different types have no order, so
sorting can fail, and which two values it reports depends on the order of its comparisons.
-/
namespace PathRouting.Value

mutual

def less : Value → Value → Except Misuse Bool
  | .str a, .str b => .ok (decide (a < b))
  | .tuple xs, .tuple ys => lessItems xs ys
  | .frozenSet xs, .frozenSet ys => .ok (allAmong xs ys && xs.length < ys.length)
  | x, y =>
    if x.isNumber && y.isNumber then .ok (compareNumbers x y == some .lt)
    else .error (.incomparable x.qualifiedTypeName y.qualifiedTypeName)

def lessItems : List Value → List Value → Except Misuse Bool
  | [], ys => .ok (!ys.isEmpty)
  | _ :: _, [] => .ok false
  | x :: xs, y :: ys => if x.sameKey y then lessItems xs ys else less x y

end

variable {α : Type}

/-- The length of the run at the head of entries behind a first one: a run that never falls,
or one that falls at every step. -/
def runLength (falling : Bool) : Value × α → List (Value × α) → Except Misuse Nat
  | _, [] => .ok 0
  | x, y :: rest => do
    let falls ← less y.1 x.1
    if falls == falling then return (← runLength falling y rest) + 1 else return 0

/-- The place for a key among sorted entries, between two bounds, behind all entries that do
not come after it. The first argument bounds the number of comparisons. -/
def insertionPoint : Nat → Value → List (Value × α) → Nat → Nat → Except Misuse Nat
  | 0, _, _, low, _ => .ok low
  | fuel + 1, key, sorted, low, high =>
    if high ≤ low then .ok low
    else
      let middle := low + (high - low) / 2
      match sorted[middle]? with
      | none => .ok low
      | some (k, _) => do
        if ← less key k then insertionPoint fuel key sorted low middle
        else insertionPoint fuel key sorted (middle + 1) high

def insertAll (sorted : List (Value × α)) : List (Value × α) → Except Misuse (List (Value × α))
  | [] => .ok sorted
  | e :: rest => do
    let place ← insertionPoint (sorted.length + 1) e.1 sorted 0 sorted.length
    insertAll (sorted.take place ++ e :: sorted.drop place) rest

/-- Entries in the order of their keys: the run at their head is kept, or turned around if it
falls, and the other entries are inserted into it. -/
def sortEntries : List (Value × α) → Except Misuse (List (Value × α))
  | [] => .ok []
  | [e] => .ok [e]
  | x :: y :: rest => do
    let falling ← less y.1 x.1
    let more ← runLength falling y rest
    let run := x :: y :: rest.take more
    insertAll (if falling then run.reverse else run) (rest.drop more)

end PathRouting.Value
