/-!
# Places in a text

A cursor splits a text in two and remembers where the groups of an expression were last
entered and left.
-/
namespace PathRouting.Regex

structure Cursor where
  /-- The text before the place, the nearest character first. -/
  before : List Char
  rest : List Char
  /-- Where groups were entered, the latest first. -/
  starts : List (Nat × Nat)
  /-- Where groups were left, the latest first. -/
  stops : List (Nat × Nat)
deriving DecidableEq

namespace Cursor

def start (text : List Char) : Cursor := ⟨[], text, [], []⟩

def position (c : Cursor) : Nat := c.before.length

def text (c : Cursor) : List Char := c.before.reverse ++ c.rest

def advance? (test : Char → Bool) (c : Cursor) : Option Cursor :=
  match c.rest with
  | [] => none
  | x :: rest => if test x then some { c with before := x :: c.before, rest := rest } else none

def advanceAll? (same : Char → Char → Bool) : List Char → Cursor → Option Cursor
  | [], c => some c
  | x :: xs, c => (c.advance? (same x)).bind (advanceAll? same xs)

def enter (number : Nat) (c : Cursor) : Cursor :=
  { c with starts := (number, c.position) :: c.starts }

def leave (number : Nat) (c : Cursor) : Cursor :=
  { c with stops := (number, c.position) :: c.stops }

def withGroupsOf (c d : Cursor) : Cursor := { c with starts := d.starts, stops := d.stops }

def bounds? (number : Nat) (c : Cursor) : Option (Nat × Nat) :=
  match c.starts.lookup number, c.stops.lookup number with
  | some start, some stop => if start ≤ stop then some (start, stop) else none
  | _, _ => none

def captured? (number : Nat) (c : Cursor) : Option (List Char) :=
  (c.bounds? number).map fun (start, stop) => (c.text.drop start).take (stop - start)

end Cursor

end PathRouting.Regex
