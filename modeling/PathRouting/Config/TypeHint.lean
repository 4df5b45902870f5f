import PathRouting.Value.Misuse

/-!
# Type hints

What a setting is expected to be. A parameterised type is checked by its outer type alone.
-/
namespace PathRouting.Config

inductive PlainType where
  | int
  | float
  | bool
  | str
  | list
  | tuple
  | set
  | frozenSet
  | mapping
  | anything
deriving DecidableEq

namespace PlainType

def name : PlainType → String
  | .int => "int"
  | .float => "float"
  | .bool => "bool"
  | .str => "str"
  | .list => "list"
  | .tuple => "tuple"
  | .set => "set"
  | .frozenSet => "frozenset"
  | .mapping => "dict"
  | .anything => "object"

def all : List PlainType :=
  [.int, .float, .bool, .str, .list, .tuple, .set, .frozenSet, .mapping, .anything]

/-- Whether a value has a type. A truth value is no integer: a flag is never a size. -/
def admits : PlainType → Value → Bool
  | .int, .int _ => true
  | .float, .float _ => true
  | .bool, .bool _ => true
  | .str, .str _ => true
  | .list, .list _ => true
  | .tuple, .tuple _ => true
  | .set, .set _ => true
  | .frozenSet, .frozenSet _ => true
  | .mapping, .mapping _ => true
  | .anything, _ => true
  | _, _ => false

end PlainType

inductive TypeHint where
  | plain (type : PlainType)
  | generic (origin : PlainType) (arguments : List TypeHint)
  /-- The type whose only value is the absent one. -/
  | absent
  | union (members : List TypeHint)
  | any
  /-- Anything that can be called; no setting can. -/
  | callable
  /-- A list of allowed values, which cannot be checked. -/
  | literal
deriving Inhabited

namespace TypeHint

mutual

/-- Whether a value agrees with a type hint. A union admits the absent value, and any other
value that its first member admits. -/
def admits (value : Value) : TypeHint → Except Misuse Bool
  | .plain t => .ok (t.admits value)
  | .generic t _ => .ok (t.admits value)
  | .absent => .ok (match value with
    | .null => true
    | _ => false)
  | .union members =>
    match value with
    | .null => .ok true
    | v => firstAdmits v members
  | .any => .ok true
  | .callable => .ok false
  | .literal => .error (.uncheckable "typing.Literal")

def firstAdmits (value : Value) : List TypeHint → Except Misuse Bool
  | [] => .ok false
  | t :: _ => admits value t

end

def isAbsent : TypeHint → Bool
  | .absent => true
  | _ => false

def name : TypeHint → String
  | .plain t => t.name
  | .generic t _ => t.name
  | .absent => "NoneType"
  | .union members =>
    if members.length == 2 && members.any isAbsent then "Optional" else "Union"
  | .any => "Any"
  | .callable => "Callable"
  | .literal => "Literal"

end TypeHint

end PathRouting.Config
