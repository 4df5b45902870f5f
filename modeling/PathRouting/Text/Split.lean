/-!
# Splitting texts
-/
namespace PathRouting.Text

def splitAll (c : Char) : List Char → List (List Char)
  | [] => [[]]
  | x :: rest =>
    if x = c then [] :: splitAll c rest
    else
      match splitAll c rest with
      | [] => [[x]]
      | part :: parts => (x :: part) :: parts

def splitFirst? (c : Char) : List Char → Option (List Char × List Char)
  | [] => none
  | x :: rest =>
    if x = c then some ([], rest)
    else (splitFirst? c rest).map fun (before, after) => (x :: before, after)

/-- A text split at the first occurrence of a character; the second part is empty if there is
none. -/
def splitFirst (c : Char) (s : List Char) : List Char × List Char :=
  (splitFirst? c s).getD (s, [])

/-- A text split at every occurrence of a pair of the same character, taken from the left. -/
def splitPairs (c : Char) : List Char → List (List Char)
  | [] => [[]]
  | [x] => [[x]]
  | x :: y :: rest =>
    if x = c ∧ y = c then [] :: splitPairs c rest
    else
      match splitPairs c (y :: rest) with
      | [] => [[x]]
      | part :: parts => (x :: part) :: parts

/-- The lines of a text whose line ends are line feeds alone. A last line may be unfinished. -/
def lines (s : List Char) : List (List Char) :=
  match (splitAll '\n' s).reverse with
  | [] :: rest => rest.reverse
  | parts => parts.reverse

def universalNewlines : List Char → List Char
  | [] => []
  | '\r' :: '\n' :: rest => '\n' :: universalNewlines rest
  | '\r' :: rest => '\n' :: universalNewlines rest
  | c :: rest => c :: universalNewlines rest

def stripChar (c : Char) (s : List Char) : List Char :=
  ((s.dropWhile (· == c)).reverse.dropWhile (· == c)).reverse

def dropStart? : List Char → List Char → Option (List Char)
  | [], s => some s
  | _ :: _, [] => none
  | c :: start, x :: s => if x = c then dropStart? start s else none

end PathRouting.Text
