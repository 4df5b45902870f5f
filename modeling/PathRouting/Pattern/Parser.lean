import PathRouting.Pattern.Scan
import PathRouting.Pattern.Error

/-!
# Reading a pattern

One pass over the characters with a stack of open groups. A closing bracket without an open
group is an error at its place; a group left open at the end is one at the place of the
outermost open bracket.
-/
namespace PathRouting.Pattern

/-- A group that is open: where its bracket stands, and what was read before the bracket. -/
structure Frame where
  openedAt : Nat
  before : List Segment

/-- A pattern that is being read: the open groups, innermost first, the text inside the
innermost, and the number of characters taken. -/
structure Reading where
  frames : List Frame
  inner : Scan
  position : Nat

namespace Reading

def start : Reading := ⟨[], Scan.empty, 0⟩

def openGroup (r : Reading) : Reading :=
  ⟨⟨r.position, r.inner.finish⟩ :: r.frames, Scan.empty, r.position + 1⟩

/-- Close the innermost group; `none` if no group is open. -/
def closeGroup? (r : Reading) : Option Reading :=
  match r.frames with
  | [] => none
  | frame :: frames =>
    let group := Segment.group r.inner.finish.reverse
    some ⟨frames, ⟨group :: frame.before, [], none⟩, r.position + 1⟩

/-- Take one character; `none` if it closes a group and none is open. -/
def push? (r : Reading) (c : Char) : Option Reading :=
  if c == groupOpen then some r.openGroup
  else if c == groupClose then r.closeGroup?
  else some ⟨r.frames, r.inner.push c, r.position + 1⟩

/-- Take characters one after another; on failure, the place of the closing bracket that has
no partner. -/
def pushAll (r : Reading) : List Char → Except Nat Reading
  | [] => .ok r
  | c :: rest =>
    match r.push? c with
    | some r => pushAll r rest
    | none => .error r.position

def outermost? (r : Reading) : Option Nat := r.frames.getLast?.map Frame.openedAt

end Reading

def readParts (file : Option String) (source : String) : Except Error (List Segment) :=
  match Reading.start.pushAll source.toList with
  | .error position => .error (.unbalanced position file)
  | .ok r =>
    match r.outermost? with
    | some position => .error (.unclosed position file)
    | none => .ok r.inner.finish.reverse

def parse (file : Option String) (source : String) : Except Error Pattern :=
  (readParts file source).map fun parts => ⟨source, parts, file⟩

end PathRouting.Pattern
