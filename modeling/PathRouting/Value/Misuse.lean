import PathRouting.Value.Basic
import PathRouting.Value.Text

/-!
# Values used as what they are not

Most operations take a value of any type and fail only where they need something that the
type lacks.
-/
namespace PathRouting

/-- Why a value cannot be used in the way it is. Types are given by name. -/
inductive Misuse where
  | unhashable (typeName : String)
  | noAttribute (typeName member : String)
  | incomparable (left right : String)
  | keyType (typeName : String)
  | notText (position : Nat) (typeName : String)
  | notJoinable
  | notIterable (typeName : String)
  | notMapping (typeName : String)
  | incompleteFault (kind : String)
  | uncheckable (typeText : String)
  | notEntry (position : Nat)
  | entryLength (position length : Nat)
  | unknownColor (name : String)
deriving DecidableEq

namespace Misuse

def message : Misuse → String
  | .unhashable name => "unhashable type: '" ++ name ++ "'"
  | .noAttribute name member => "'" ++ name ++ "' object has no attribute '" ++ member ++ "'"
  | .incomparable left right =>
    "'<' not supported between instances of '" ++ left ++ "' and '" ++ right ++ "'"
  | .keyType name => "keys must be str, int, float, bool or None, not " ++ name
  | .notText position name =>
    "sequence item " ++ Value.ofInt position ++ ": expected str instance, " ++ name ++ " found"
  | .notJoinable => "can only join an iterable"
  | .notIterable name => "'" ++ name ++ "' object is not iterable"
  | .notMapping name => "'" ++ name ++ "' object is not a mapping"
  | .incompleteFault kind => kind ++ " missing required code, message, or domain"
  | .uncheckable typeText => typeText ++ " cannot be used with isinstance()"
  | .notEntry position =>
    "cannot convert dictionary update sequence element #" ++ Value.ofInt position ++
      " to a sequence"
  | .entryLength position length =>
    "dictionary update sequence element #" ++ Value.ofInt position ++ " has length " ++
      Value.ofInt length ++ "; 2 is required"
  | .unknownColor name => "Unknown color " ++ Text.quoted name

end Misuse

namespace Value

/-- The values that a collection goes through; a mapping goes through its keys. -/
def elements? : Value → Option (List Value)
  | .list xs | .tuple xs | .set xs | .frozenSet xs => some xs
  | .mapping es => some (es.map Prod.fst)
  | .str s => some (s.toList.map fun c => .str (String.singleton c))
  | _ => none

def missing (member : String) (v : Value) : Misuse := .noAttribute v.qualifiedTypeName member

def items (v : Value) : Except Misuse (List (Value × Value)) :=
  match v with
  | .mapping es => .ok es
  | v => .error (v.missing "items")

end Value

end PathRouting
