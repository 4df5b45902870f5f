import PathRouting.Pattern.Condition
import PathRouting.Regex.Matching
import PathRouting.Value.Entries

/-!
# From a tree to a matcher

A tree becomes one regular expression that a whole path has to match. Every parameter becomes
a capturing group; conditions may hold groups of their own, so the number of a parameter's
group counts those before it.
-/
namespace PathRouting.Pattern

/-- A part of the expression: its source, the parameters in it with the numbers of their
groups, and the number of groups up to its end. -/
structure Piece where
  source : List Char
  slots : List (String × Nat)
  groups : Nat

variable [CharacterNames]

mutual

def piece (condition : String → Except Failure Value) (groups : Nat) :
    Segment → Except Failure Piece
  | .literal text => .ok ⟨Regex.escapeText text.toList, [], groups⟩
  | .param name => do
    let value ← condition name
    let inner ← conditionSource name value
    return ⟨'(' :: (inner.source ++ [')']), [(name, groups + 1)], groups + 1 + inner.groups⟩
  | .optional _ parts => do
    let inner ← pieces condition groups parts
    return ⟨"(?:".toList ++ inner.source ++ ")?".toList, inner.slots, inner.groups⟩

def pieces (condition : String → Except Failure Value) (groups : Nat) :
    List Segment → Except Failure Piece
  | [] => .ok ⟨[], [], groups⟩
  | part :: rest => do
    let x ← piece condition groups part
    let y ← pieces condition x.groups rest
    return ⟨x.source ++ y.source, x.slots ++ y.slots, y.groups⟩

end

structure Matcher where
  source : String
  root : Regex.Node
  /-- The parameters in order, each with the number of its group. -/
  slots : List (String × Nat)

namespace Matcher

def order (m : Matcher) : List String := m.slots.map Prod.fst

def indices (m : Matcher) : List Nat := m.slots.map Prod.snd

/-- The values that a path gives to the parameters; a parameter in a group that is absent from
the path has none. -/
def run (m : Matcher) (path : String) : Option (List (String × String)) :=
  (m.root.matchAll .plain path.toList).map fun c =>
    m.slots.filterMap fun (name, number) =>
      (c.captured? number).map fun text => (name, String.ofList text)

end Matcher

/-- The names that occur more than once, each once and in order. -/
def repeatedNames (names : List String) : List String :=
  ((names.filter fun n => 1 < names.count n).eraseDups).mergeSort fun a b => decide (a ≤ b)

/-- The condition on a parameter; none is the absent value. -/
def conditionOf (conditions : Value) (name : String) : Except Failure Value :=
  if !conditions.truthy then .ok .null
  else match conditions with
    | .mapping es => .ok ((Mapping.named? es name).getD .null)
    | v => .error (.misuse (v.missing "get"))

def Matcher.ofPattern (p : Pattern) (conditions : Value) : Except Failure Matcher :=
  let repeated := repeatedNames p.names
  if !repeated.isEmpty then .error (.pattern (.duplicateNames repeated p.file))
  else do
    let inner ← pieces (conditionOf conditions) 0 p.parts
    let source := '^' :: (inner.source ++ ['$'])
    match Regex.ofChars source with
    | .ok regex => return ⟨String.ofList source, regex.root, inner.slots⟩
    | .error .repetitionTooLarge => .error (.regex .repetitionTooLarge)
    | .error .alphabetsClash => .error (.regex .alphabetsClash)
    | .error e => .error (.pattern (.invalidWhole (e.message source) p.file))

end PathRouting.Pattern
