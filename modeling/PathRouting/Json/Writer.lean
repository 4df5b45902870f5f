import PathRouting.Json.Basic
import PathRouting.Number.Shortest
import PathRouting.Text.Digit
import PathRouting.Value.Text

/-!
# JSON text

A document is written on one line, or with one item a line under a given indentation. All
characters outside printable ASCII are escaped, those beyond 16 bits as a pair of units.
-/
namespace PathRouting.Json

open PathRouting.Text

def escapeUnit (n : Nat) : List Char := '\\' :: 'u' :: hexDigits 4 n

def escapeChar (c : Char) : List Char :=
  if c == '"' then ['\\', '"']
  else if c == '\\' then ['\\', '\\']
  else if c == '\n' then ['\\', 'n']
  else if c == '\r' then ['\\', 'r']
  else if c == '\t' then ['\\', 't']
  else if c.toNat == 12 then ['\\', 'f']
  else if c.toNat == 8 then ['\\', 'b']
  else if 32 ≤ c.toNat && c.toNat < 127 then [c]
  else if c.toNat < 0x10000 then escapeUnit c.toNat
  else
    let n := c.toNat - 0x10000
    escapeUnit (0xD800 + n / 0x400) ++ escapeUnit (0xDC00 + n % 0x400)

def writeText (s : String) : List Char := '"' :: (s.toList.flatMap escapeChar ++ ['"'])

/-- A number, with words for what is no number or infinite. -/
def writeFloat : Binary64 → List Char
  | .nan => "NaN".toList
  | .infinity negative => if negative then "-Infinity".toList else "Infinity".toList
  | x => x.text.toList

/-- How a document is laid out: on one line, or with each item on a line of its own behind
the given number of spaces a level. -/
inductive Layout where
  | oneLine
  | indented (width : Nat)
deriving DecidableEq

/-- The layout for an indentation that may be absent or below zero. -/
def Layout.ofIndent : Option Int → Layout
  | none => .oneLine
  | some n => .indented n.toNat

/-- What stands before an item at a depth, the first item being marked. -/
def Layout.before (layout : Layout) (depth : Nat) (first : Bool) : List Char :=
  match layout with
  | .oneLine => if first then [] else [',', ' ']
  | .indented width =>
    (if first then [] else [',']) ++ '\n' :: List.replicate (width * depth) ' '

def Layout.close (layout : Layout) (depth : Nat) : List Char :=
  match layout with
  | .oneLine => []
  | .indented width => '\n' :: List.replicate (width * depth) ' '

mutual

def write (layout : Layout) (depth : Nat) : Json → List Char
  | .null => "null".toList
  | .bool b => if b then "true".toList else "false".toList
  | .int i => (Value.ofInt i).toList
  | .float x => writeFloat x
  | .str s => writeText s
  | .arr items =>
    if items.isEmpty then ['[', ']']
    else '[' :: (writeItems layout (depth + 1) true items ++ layout.close depth ++ [']'])
  | .obj members =>
    if members.isEmpty then ['\x7b', '\x7d']
    else '\x7b' :: (writeMembers layout (depth + 1) true members ++ layout.close depth ++ ['\x7d'])

/-- The texts of the items of an array, each behind its separator. -/
def writeItems (layout : Layout) (depth : Nat) (first : Bool) : List Json → List Char
  | [] => []
  | x :: rest =>
    layout.before depth first ++ write layout depth x ++ writeItems layout depth false rest

def writeMembers (layout : Layout) (depth : Nat) (first : Bool) :
    List (String × Json) → List Char
  | [] => []
  | (name, x) :: rest =>
    layout.before depth first ++ writeText name ++ [':', ' '] ++ write layout depth x ++
      writeMembers layout depth false rest

end

def text (layout : Layout) (document : Json) : String := String.ofList (write layout 0 document)

end PathRouting.Json
