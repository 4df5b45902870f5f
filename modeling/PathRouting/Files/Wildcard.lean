/-!
# Wildcards in names

In a pattern for names a star stands for any text, a question mark for one character, and
brackets for one of the characters in them. A bracket that is never closed stands for itself.
-/
namespace PathRouting

inductive Wildcard where
  | anyText
  | anyChar
  | char (c : Char)
  /-- One character inside one of the ranges, or outside all of them. -/
  | among (negated : Bool) (ranges : List (Char × Char))
deriving DecidableEq

namespace Wildcard

def isSpecial (c : Char) : Bool := c == '*' || c == '?' || c == '['

/-- The ranges between brackets. A single character is a range of its own. -/
def ranges : List Char → List (Char × Char)
  | a :: '-' :: b :: rest => (a, b) :: ranges rest
  | a :: rest => (a, a) :: ranges rest
  | [] => []

/-- The pattern for what stands between brackets. Ranges that hold nothing vanish, and an
exclamation mark that is first then turns the meaning around. -/
def ofBrackets (body : List Char) : Wildcard :=
  match body with
  | '!' :: rest => .among true (ranges rest)
  | _ =>
    match (ranges body).filter fun (a, b) => decide (a ≤ b) with
    | ('!', '!') :: rest => .among true rest
    | ('!', b) :: rest => .among true (('-', '-') :: (b, b) :: rest)
    | rest => .among false rest

/-- What stands between brackets, of which the first is taken, and what follows. A closing
bracket that comes first, perhaps behind an exclamation mark, is one of the characters. -/
def brackets? (s : List Char) : Option (List Char × List Char) :=
  let head := match s with
    | '!' :: ']' :: _ => 2
    | '!' :: _ => 1
    | ']' :: _ => 1
    | _ => 0
  let body := s.drop head
  match body.dropWhile (· != ']') with
  | [] => none
  | _ :: rest => some (s.take head ++ body.takeWhile (· != ']'), rest)

/-- The parts of a pattern. The first argument bounds their number. -/
def parse : Nat → List Char → List Wildcard
  | 0, _ => []
  | _ + 1, [] => []
  | fuel + 1, c :: rest =>
    if c == '*' then .anyText :: parse fuel rest
    else if c == '?' then .anyChar :: parse fuel rest
    else if c == '[' then
      match brackets? rest with
      | some (body, rest) => ofBrackets body :: parse fuel rest
      | none => .char '[' :: parse fuel rest
    else .char c :: parse fuel rest

def admits : Wildcard → Char → Bool
  | .anyText, _ => false
  | .anyChar, _ => true
  | .char c, x => c == x
  | .among negated ranges, x => (ranges.any fun (a, b) => decide (a ≤ x ∧ x ≤ b)) != negated

/-- The ends of a text, the whole text first. -/
def ends : List Char → List (List Char)
  | [] => [[]]
  | c :: rest => (c :: rest) :: ends rest

def fits : List Wildcard → List Char → Bool
  | [], s => s.isEmpty
  | .anyText :: ws, s => (ends s).any (fits ws)
  | w :: ws, s =>
    match s with
    | [] => false
    | c :: rest => w.admits c && fits ws rest

/-- The names among several that fit a pattern. Names that begin with a point only fit a pattern
that does so too. -/
def select (pattern : List Char) (names : List String) : List String :=
  let parts := parse pattern.length pattern
  names.filter fun name =>
    (pattern.head? == some '.' || name.toList.head? != some '.') && fits parts name.toList

end Wildcard

end PathRouting
