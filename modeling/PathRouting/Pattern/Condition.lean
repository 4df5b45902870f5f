import PathRouting.Failure
import PathRouting.Pattern.Segment
import PathRouting.Regex.Assembly
import PathRouting.Regex.LiteralText

/-!
# Conditions on parameters

A condition says which values a parameter can take: no condition admits a non-empty run of
name characters, a text is a regular expression, and a collection lists the values.
-/
namespace PathRouting.Pattern

def plainValueSource : String := "[A-Za-z0-9_\\-]+"

structure ConditionSource where
  source : List Char
  groups : Nat
deriving DecidableEq

/-- An expression for any of the given texts, in order. -/
def anyOf (values : List String) : List Char :=
  "(?:".toList ++ ['|'].intercalate (values.map fun v => Regex.escapeText v.toList) ++ [')']

/-- The values that a condition lists: a collection with an order lists them in that order, a
set in the order of their texts. -/
def listedValues? : Value → Option (List String)
  | .list xs | .tuple xs => some (xs.map Value.text)
  | .set xs | .frozenSet xs => some ((xs.map Value.text).mergeSort fun a b => decide (a ≤ b))
  | _ => none

def conditionSource [CharacterNames] (name : String) (condition : Value) :
    Except Failure ConditionSource :=
  match condition with
  | .null => .ok ⟨plainValueSource.toList, 0⟩
  | .str source =>
    match Regex.ofChars source.toList with
    | .ok regex => .ok ⟨source.toList, regex.groups⟩
    | .error .repetitionTooLarge => .error (.regex .repetitionTooLarge)
    | .error .alphabetsClash => .error (.regex .alphabetsClash)
    | .error e => .error (.pattern (.invalidCondition name (e.message source.toList)))
  | v =>
    match listedValues? v with
    | none => .error (.pattern (.unsupportedCondition name v.typeName))
    | some [] => .error (.pattern (.emptyCondition name))
    | some values => .ok ⟨anyOf values, 0⟩

end PathRouting.Pattern
