import PathRouting.Files.Path
import PathRouting.Files.View
import PathRouting.Files.Wildcard

/-!
# Path patterns

Every name of a path may be a pattern. The names before the first pattern are taken as they are.
-/
namespace PathRouting.Glob

open PathRouting.Text

def isPattern (s : List Char) : Bool := s.any Wildcard.isSpecial

/-- A path with patterns in it: what stands before the first of them, and the names from there
on, the last of which is empty if the path ends in a slash. -/
def split (path : List Char) : String × List (List Char) :=
  let parts := splitAll '/' path
  let before := parts.takeWhile fun part => !isPattern part
  let after := parts.dropWhile fun part => !isPattern part
  let base := if before.isEmpty then []
    else Path.trimEnd (before.flatMap fun part => part ++ ['/'])
  let ending := if after.getLastD [] == [] then [[]] else []
  (String.ofList base, (after.filter fun part => !part.isEmpty) ++ ending)

variable {m : Type → Type} [Monad m]

def expandName (v : FileView m) (part : List Char) (directory : String) : m (List String) := do
  if isPattern part then
    let names ← v.names (if directory.isEmpty then "." else directory)
    return (Wildcard.select part names).map (Path.join directory)
  else
    let path := Path.join directory (String.ofList part)
    return if (← v.kind? path).isSome then [path] else []

def expandAll (f : String → m (List String)) : List String → m (List String)
  | [] => return []
  | d :: rest => do
    let here ← f d
    let others ← expandAll f rest
    return here ++ others

def directories (v : FileView m) : List String → m (List String)
  | [] => return []
  | d :: rest => do
    let kind ← v.kind? d
    let others ← directories v rest
    return if kind == some .directory then d :: others else others

/-- The paths that fit names one after another, from the given directories on. -/
def expandFrom (v : FileView m) : List (List Char) → List String → m (List String)
  | [], found => return found
  | [part], found => expandAll (expandName v part) found
  | part :: next :: rest, found => do
    let found ← expandAll (expandName v part) found
    let inner ← directories v found
    expandFrom v (next :: rest) inner

def expand (v : FileView m) (path : String) : m (List String) := do
  if isPattern path.toList then
    let (base, parts) := split path.toList
    expandFrom v parts [base]
  else
    return if (← v.kind? path).isSome then [path] else []

end PathRouting.Glob
