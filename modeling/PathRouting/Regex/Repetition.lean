import PathRouting.Regex.Cursor

/-!
# Repetitions

A body is a function that tries its ways to match one after another, each with what has to
match behind it. Beyond the least number of times, a body is tried again only if the place has
changed since it was last tried, so the characters left bound the number of rounds.
-/
namespace PathRouting.Regex

abbrev Step := Cursor → (Cursor → Option Cursor) → Option Cursor

namespace Step

def times (step : Step) : Nat → Step
  | 0, c, k => k c
  | n + 1, c, k => step c fun d => times step n d k

/-- As often as possible, at most `room` times. The last argument but two is the place where the
body was last tried. -/
def greedy (step : Step) (k : Cursor → Option Cursor) :
    Nat → Option Nat → Option Nat → Cursor → Option Cursor
  | 0, _, _, c => k c
  | fuel + 1, room, last, c =>
    if room = some 0 || last = some c.position then k c
    else
      match step c fun d => greedy step k fuel (room.map (· - 1)) (some c.position) d with
      | some r => some r
      | none => k c

/-- As rarely as possible, at most `room` times. -/
def lazy (step : Step) (k : Cursor → Option Cursor) :
    Nat → Option Nat → Option Nat → Cursor → Option Cursor
  | 0, _, _, c => k c
  | fuel + 1, room, last, c =>
    match k c with
    | some r => some r
    | none =>
      if room = some 0 || last = some c.position then none
      else step c fun d => lazy step k fuel (room.map (· - 1)) (some c.position) d

def first (step : Step) (c : Cursor) : Option Cursor := step c some

/-- Exactly a number of times, each time the first way to match. -/
def firstTimes (step : Step) : Nat → Cursor → Option Cursor
  | 0, c => some c
  | n + 1, c => (step.first c).bind (firstTimes step n)

/-- As often as possible, each time the first way to match. -/
def firstGreedy (step : Step) : Nat → Option Nat → Cursor → Cursor
  | 0, _, c => c
  | fuel + 1, room, c =>
    if room = some 0 then c
    else
      match step.first c with
      | none => c
      | some d =>
        if d.position = c.position then d else firstGreedy step fuel (room.map (· - 1)) d

end Step

/-- A number of rounds that is never exhausted from a place. -/
def rounds (c : Cursor) : Nat := c.rest.length + 2

end PathRouting.Regex
