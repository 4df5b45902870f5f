import PathRouting.Text.Split

/-!
# File paths

A path is a text in which slashes separate names.
-/
namespace PathRouting.Path

open PathRouting.Text

def join (directory name : String) : String :=
  if name.startsWith "/" || directory.isEmpty then name
  else if directory.endsWith "/" then directory ++ name
  else directory ++ "/" ++ name

/-- The slashes at the beginning of a path that make it absolute. Exactly two are kept. -/
def root (path : List Char) : String :=
  match path.takeWhile (· == '/') with
  | [] => ""
  | ['/', '/'] => "//"
  | _ => "/"

/-- The names that count in a path: neither empty nor the name of the directory itself. -/
def names (path : List Char) : List String :=
  ((splitAll '/' path).filter fun name => !name.isEmpty && name != ['.']).map String.ofList

def normalize (path : String) : String :=
  let s := path.toList
  let body := root s ++ "/".intercalate (names s)
  if body.isEmpty then "." else body

def lastName (path : String) : String := (names path.toList).getLastD ""

/-- The end of the last name from its last point on. A point at either end of the name does not
count. -/
def suffix (path : String) : String :=
  let name := (lastName path).toList
  match splitFirst? '.' name.reverse with
  | none => ""
  | some (after, before) =>
    if after.isEmpty || before.isEmpty then "" else String.ofList ('.' :: after.reverse)

/-- The path without slashes at its end, unless it has nothing else. -/
def trimEnd (path : List Char) : List Char :=
  let trimmed := (path.reverse.dropWhile (· == '/')).reverse
  if trimmed.isEmpty then path else trimmed

end PathRouting.Path
