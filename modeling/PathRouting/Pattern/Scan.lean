import PathRouting.Pattern.Segment

/-!
# Placeholders in running text

Text is taken one character at a time. A `<` opens a possible placeholder, which lasts while
the characters form a name; if `>` ends the name it becomes a parameter, and otherwise all of
it was literal text.
-/
namespace PathRouting.Pattern

/-- Text read so far. What is not finished is kept with the last character first. -/
structure Scan where
  /-- The finished parts, the last one first. -/
  done : List Segment
  run : List Char
  /-- The name behind an open `<`, if there is one. -/
  name : Option (List Char)

namespace Scan

def empty : Scan := ⟨[], [], none⟩

/-- An open placeholder becomes literal text. -/
def settle (s : Scan) : Scan :=
  match s.name with
  | none => s
  | some name => ⟨s.done, name ++ placeholderOpen :: s.run, none⟩

def closeRun (s : Scan) : List Segment :=
  if s.run.isEmpty then s.done else .literal (String.ofList s.run.reverse) :: s.done

def continuesName (name : List Char) (c : Char) : Bool :=
  if name.isEmpty then isNameStart c else isNameChar c

def pushPlain (s : Scan) (c : Char) : Scan :=
  if c == placeholderOpen then ⟨s.done, s.run, some []⟩ else ⟨s.done, c :: s.run, none⟩

def push (s : Scan) (c : Char) : Scan :=
  match s.name with
  | none => s.pushPlain c
  | some name =>
    if continuesName name c then ⟨s.done, s.run, some (c :: name)⟩
    else if c == placeholderClose && !name.isEmpty then
      ⟨.param (String.ofList name.reverse) :: s.closeRun, [], none⟩
    else s.settle.pushPlain c

def finish (s : Scan) : List Segment := s.settle.closeRun

end Scan

def splitPlaceholders (text : String) : List Segment :=
  (text.toList.foldl Scan.push Scan.empty).finish.reverse

end PathRouting.Pattern
