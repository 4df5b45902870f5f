import PathRouting.Config.Settings
import PathRouting.Text.Blank

/-!
# Layers of settings

Settings come in layers: files and overrides bring whole mappings, variables bring one value
each. Later layers go over earlier ones.
-/
namespace PathRouting.Config

inductive Layer where
  | document (document : Document)
  | assignment (path : KeyPath) (value : Value)

def Settings.apply (s : Settings) : Layer → Settings
  | .document d => s.merge d
  | .assignment path value => s.assign path value

def Settings.applyAll (s : Settings) (layers : List Layer) : Settings := layers.foldl apply s

namespace Layer

/-- The settings of several layers, the first one at the bottom. -/
def stack (layers : List Layer) : Settings := (Settings.ofEntries []).applyAll layers

def ofVariable (start name text : String) : Except Failure (Option Layer) :=
  match Text.dropStart? start.toList name.toList with
  | none => .ok none
  | some key => do
    let value ← valueOfText text
    return some (.assignment (.ofVariable (String.ofList key)) value)

def ofVariables (start : String) : List (String × String) → Except Failure (List Layer)
  | [] => .ok []
  | (name, text) :: rest => do
    let layer ← ofVariable start name text
    let others ← ofVariables start rest
    return layer.toList ++ others

/-- The layer of overrides, which are a mapping or count as false. -/
def ofOverrides (overrides : Value) : Except Failure (List Layer) :=
  if overrides.truthy then do
    let entries ← Failure.ofMisuse overrides.items
    return [.document (.ofValue (.mapping entries))]
  else .ok []

end Layer

/-- The text of a variable without the blanks and the quotes around it. -/
def unquote (text : List Char) : String :=
  String.ofList (Text.stripChar '\'' (Text.stripChar '"' (Text.stripBlanks text)))

/-- The variable that a line of a file sets. Empty lines, comments and lines without an equals
sign set none. -/
def variableOfLine (line : List Char) : Option (String × String) :=
  let line := Text.stripBlanks line
  if line.head? == some '#' then none
  else (Text.splitFirst? '=' line).map fun (name, text) =>
    (String.ofList (Text.stripBlanks name), unquote text)

def variablesOf (content : String) : List (String × String) :=
  (Text.lines content.toList).filterMap variableOfLine

end PathRouting.Config
