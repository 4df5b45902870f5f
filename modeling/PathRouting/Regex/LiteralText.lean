/-!
# Literal text in a regular expression

Characters with a meaning of their own, and blanks, are written behind a backslash.
-/
namespace PathRouting.Regex

def specialCharacters : List Char :=
  ['(', ')', '[', ']', '\x7b', '\x7d', '?', '*', '+', '-', '|', '^', '$', '\\', '.', '&', '~',
    '#', ' ', '\t', '\n', '\r', '\x0b', '\x0c']

def isSpecial (c : Char) : Bool := specialCharacters.contains c

def escapeChar (c : Char) : List Char := if isSpecial c then ['\\', c] else [c]

def escapeText (text : List Char) : List Char := text.flatMap escapeChar

end PathRouting.Regex
