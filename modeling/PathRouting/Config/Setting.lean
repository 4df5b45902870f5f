import PathRouting.Failure
import PathRouting.Fault.Kinds
import PathRouting.Json.OfValue
import PathRouting.Json.Reader
import PathRouting.Number.Reader
import PathRouting.Text.Case
import PathRouting.Text.Split

/-!
# Settings

Settings are a mapping, nested at will. A setting is addressed by the keys that lead to it. The
text of a setting is read as the value that it looks like.
-/
namespace PathRouting.Config

abbrev KeyPath := List String

def truthWord? (s : String) : Option Bool :=
  let word := Text.lower s
  if word == "true" || word == "yes" then some true
  else if word == "false" || word == "no" then some false
  else none

/-- The number that a text stands for: a floating-point one if there is a point in it. -/
def number? (s : String) : Option Value :=
  if s.toList.contains '.' then (Number.float? s.toList).map .float
  else (Number.integer? s.toList).map .int

def startsLikeJson (s : String) : Bool :=
  s.toList.head? == some '\x7b' || s.toList.head? == some '['

/-- A container that is written as JSON; a text that is not well-formed stays a text. -/
def containerOrText (s : String) : Except Failure Value :=
  if startsLikeJson s then
    match Json.read s with
    | .ok document => .ok document.toValue
    | .error e =>
      match e.cause with
      | .tooManyDigits count => .error (.tooManyDigits count)
      | _ => .ok (.str s)
  else .ok (.str s)

/-- The value that the text of a setting stands for: a truth value, a number, a container, or
else the text itself. -/
def valueOfText (s : String) : Except Failure Value :=
  match truthWord? s, number? s with
  | some b, _ => .ok (.bool b)
  | none, some n => .ok n
  | none, none => containerOrText s

def lookup (v : Value) : KeyPath → Option Value
  | [] => some v
  | key :: rest =>
    match v with
    | .mapping es => (Mapping.named? es key).bind fun inner => lookup inner rest
    | _ => none

def KeyPath.ofDotted (s : String) : KeyPath := (Text.splitAll '.' s.toList).map String.ofList

/-- The key path of a variable's name behind its prefix: lower case, with two underscores
between the keys. -/
def KeyPath.ofVariable (name : String) : KeyPath :=
  (Text.splitPairs '_' (Text.lower name).toList).map String.ofList

def get? (settings : Mapping Value) (path : String) : Option Value :=
  lookup (.mapping settings) (.ofDotted path)

def require (settings : Mapping Value) (path : String) : Except Failure Value :=
  match get? settings path with
  | some v => .ok v
  | none => .error (.fault (Fault.configMissing (.str path) []))

end PathRouting.Config
