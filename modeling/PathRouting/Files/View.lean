import PathRouting.Text.Split

/-!
# Views of file systems

Whatever reads files asks a view: what stands at a path, which names a directory has, and what
a file contains. A tree that is given as a list of its files is such a view.
-/
namespace PathRouting

inductive FileKind where
  | file
  | directory
deriving DecidableEq

/-- A view of a file system. Paths are relative to a working directory. -/
structure FileView (m : Type → Type) where
  kind? : String → m (Option FileKind)
  /-- The names in a directory, in any order. -/
  names : String → m (List String)
  content : String → m String

/-- The files below a working directory, by the names on the way to them. -/
structure FileTree where
  files : List (List String × String)

namespace FileTree

def ofFiles (files : List (String × String)) : FileTree :=
  ⟨files.map fun (path, text) => ((Text.splitAll '/' path.toList).map String.ofList, text)⟩

def kindAt? (t : FileTree) (names : List String) : Option FileKind :=
  if t.files.any (fun f => f.1 == names) then some .file
  else if names.isEmpty || t.files.any (fun f => names.isPrefixOf f.1) then some .directory
  else none

def namesBelow (t : FileTree) (names : List String) : List String :=
  (t.files.filterMap fun f =>
    if names.isPrefixOf f.1 then (f.1.drop names.length).head? else none).eraseDups

/-- Go on from a directory along the parts of a path. Nothing lies outside the tree. -/
def walk (t : FileTree) : List String → List String → Option (List String)
  | at_, [] => some at_
  | at_, part :: rest =>
    if t.kindAt? at_ == some .directory then
      if part.isEmpty || part == "." then t.walk at_ rest
      else if part == ".." then
        if at_.isEmpty then none else t.walk at_.dropLast rest
      else if (t.kindAt? (at_ ++ [part])).isSome then t.walk (at_ ++ [part]) rest
      else none
    else none

def resolve? (t : FileTree) (path : String) : Option (List String) :=
  if path.isEmpty || path.startsWith "/" then none
  else t.walk [] ((Text.splitAll '/' path.toList).map String.ofList)

def view (t : FileTree) : FileView Id where
  kind? path := (t.resolve? path).bind t.kindAt?
  names path := ((t.resolve? path).map t.namesBelow).getD []
  content path :=
    match t.resolve? path with
    | none => ""
    | some names => ((t.files.reverse.find? fun f => f.1 == names).map Prod.snd).getD ""

end FileTree

end PathRouting
