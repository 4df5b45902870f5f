import PathRouting.Pattern.Condition
import PathRouting.Text.Split

/-!
# Decompositions of paths

A path is matched directly along a tree, without a regular expression: every part takes text
from the beginning of what is left, in all the ways it can and in order of preference. The
first decomposition that leaves nothing over tells the values of the parameters.
-/
namespace PathRouting

namespace Pattern

inductive Allowed where
  | nameRun
  | line
  | oneOf (texts : List String)
deriving DecidableEq

namespace Allowed

/-- What a condition allows; `none` for a regular expression of its own. -/
def ofCondition? (condition : Value) : Option Allowed :=
  match condition with
  | .null => some .nameRun
  | .str ".*" => some .line
  | v =>
    match listedValues? v with
    | none | some [] => none
    | some texts => some (.oneOf texts)

def holds (a : Allowed) (text : List Char) : Bool :=
  match a with
  | .nameRun => !text.isEmpty && text.all isNameChar
  | .line => !text.contains '\n'
  | .oneOf texts => texts.contains (String.ofList text)

/-- The ways to split a text behind characters with a property, the longest beginning first. -/
def splits (p : Char → Bool) : List Char → List (List Char × List Char)
  | [] => [([], [])]
  | c :: rest =>
    if p c then (splits p rest).map (fun (taken, left) => (c :: taken, left)) ++ [([], c :: rest)]
    else [([], c :: rest)]

/-- What can be taken from the beginning of a text, with what is left. -/
def takes (a : Allowed) (s : List Char) : List (List Char × List Char) :=
  match a with
  | .nameRun => (splits isNameChar s).filter fun (taken, _) => !taken.isEmpty
  | .line => splits (· != '\n') s
  | .oneOf texts => texts.filterMap fun text =>
      (Text.dropStart? text.toList s).map fun left => (text.toList, left)

end Allowed

abbrev Captures := List (String × String)

mutual

/-- The ways in which a part takes text, with what is left. An optional group is first taken to
be present. -/
def ways (allowed : String → Allowed) : Segment → List Char → List (Captures × List Char)
  | .literal text, s => (Text.dropStart? text.toList s).toList.map fun left => ([], left)
  | .param name, s =>
    ((allowed name).takes s).map fun (taken, left) => ([(name, String.ofList taken)], left)
  | .optional _ parts, s => waysOf allowed parts s ++ [([], s)]

def waysOf (allowed : String → Allowed) : List Segment → List Char → List (Captures × List Char)
  | [], s => [([], s)]
  | part :: rest, s =>
    (ways allowed part s).flatMap fun (found, left) =>
      (waysOf allowed rest left).map fun (more, left) => (found ++ more, left)

end

def decompose? (allowed : String → Allowed) (parts : List Segment) (path : String) :
    Option Captures :=
  ((waysOf allowed parts path.toList).find? fun (_, left) => left.isEmpty).map Prod.fst

end Pattern

end PathRouting
