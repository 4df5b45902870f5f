import PathRouting.Number.Binary64

/-!
# Dynamic values

Conditions, defaults, parameters, payloads and settings are values of one dynamic type. A
mapping keeps the order in which its keys were first set.
-/
namespace PathRouting

inductive Value where
  | null
  | bool (b : Bool)
  | int (i : Int)
  | float (x : Binary64)
  | str (s : String)
  | list (items : List Value)
  | tuple (items : List Value)
  | set (items : List Value)
  | frozenSet (items : List Value)
  | mapping (entries : List (Value × Value))
  /-- An object that is known by its attributes alone. -/
  | record (fields : List (String × Value))
deriving Inhabited

namespace Value

def typeName : Value → String
  | .null => "NoneType"
  | .bool _ => "bool"
  | .int _ => "int"
  | .float _ => "float"
  | .str _ => "str"
  | .list _ => "list"
  | .tuple _ => "tuple"
  | .set _ => "set"
  | .frozenSet _ => "frozenset"
  | .mapping _ => "dict"
  | .record _ => "SimpleNamespace"

/-- The type's name as an operation that the type lacks reports it. -/
def qualifiedTypeName : Value → String
  | .record _ => "types.SimpleNamespace"
  | v => v.typeName

/-- A value counts as true unless it is absent, zero or empty. -/
def truthy : Value → Bool
  | .null => false
  | .bool b => b
  | .int i => i != 0
  | .float x => !x.isZero
  | .str s => !s.isEmpty
  | .list xs | .tuple xs | .set xs | .frozenSet xs => !xs.isEmpty
  | .mapping es => !es.isEmpty
  | .record _ => true

def isStr : Value → Bool
  | .str _ => true
  | _ => false

def isMapping : Value → Bool
  | .mapping _ => true
  | _ => false

end Value

end PathRouting
