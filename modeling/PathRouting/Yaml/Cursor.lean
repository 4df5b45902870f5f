import PathRouting.Yaml.Error

/-!
# A place in a YAML text

A cursor is what is left of the text, with the place where it begins. Behind the end of the
text there are only null characters, which the text itself cannot have.
-/
namespace PathRouting.Yaml

structure Cursor where
  rest : List Char
  index : Nat
  line : Nat
  column : Nat

def endMark : Char := Char.ofNat 0

def isBreak (c : Char) : Bool :=
  c == '\n' || c == '\r' || c.toNat == 0x85 || c.toNat == 0x2028 || c.toNat == 0x2029

def isBreakOrEnd (c : Char) : Bool := c == endMark || isBreak c

def isSeparator (c : Char) : Bool := c == ' ' || c == '\t' || isBreakOrEnd c

namespace Cursor

def start (text : List Char) : Cursor := ⟨text, 0, 0, 0⟩

def place (c : Cursor) : Place := ⟨c.line, c.column⟩

def peekAt (c : Cursor) (n : Nat) : Char := c.rest.getD n endMark

def peek (c : Cursor) : Char := c.peekAt 0

/-- The cursor behind the next character. Byte order marks take no column. -/
def next (c : Cursor) : Cursor :=
  match c.rest with
  | [] => c
  | x :: rest =>
    if isBreak x && !(x == '\r' && rest.head? == some '\n') then
      ⟨rest, c.index + 1, c.line + 1, 0⟩
    else ⟨rest, c.index + 1, c.line, if x.toNat == 0xFEFF then c.column else c.column + 1⟩

def advance (c : Cursor) : Nat → Cursor
  | 0 => c
  | n + 1 => c.next.advance n

def span (c : Cursor) (p : Char → Bool) : List Char × Cursor :=
  let run := c.rest.takeWhile p
  (run, c.advance run.length)

/-- The cursor behind a line end, and the character that the line end is read as. -/
def takeBreak (c : Cursor) : Char × Cursor :=
  let x := c.peek
  if x == '\r' && c.peekAt 1 == '\n' then ('\n', c.advance 2)
  else if x.toNat == 0x2028 || x.toNat == 0x2029 then (x, c.next)
  else ('\n', c.next)

/-- Whether a line of three given characters and nothing more begins here, or a line on which
a separator follows them. -/
def startsWithMark (c : Cursor) (x : Char) : Bool :=
  c.peekAt 0 == x && c.peekAt 1 == x && c.peekAt 2 == x && isSeparator (c.peekAt 3)

def atDocumentMark (c : Cursor) : Bool := c.startsWithMark '-' || c.startsWithMark '.'

def skipComment (c : Cursor) : Cursor :=
  if c.peek == '#' then (c.span fun x => !isBreakOrEnd x).2 else c

def error (c : Cursor) (problem : String) : Error := ⟨.tokens, problem, some c.place⟩

end Cursor

end PathRouting.Yaml
