import PathRouting.Text.Case
import PathRouting.Text.Split

/-!
# Names of characters

A regular expression may give a character by its name. Which names there are is told by a table
that is kept outside of the project, so the table is a parameter of whatever reads expressions.
-/
namespace PathRouting

/-- A table of the names of characters. -/
class CharacterNames where
  named? : String → Option Char

namespace CharacterNames

def digitWords : List String :=
  ["ZERO", "ONE", "TWO", "THREE", "FOUR", "FIVE", "SIX", "SEVEN", "EIGHT", "NINE"]

def signs : List (String × Char) := [
  ("SPACE", ' '), ("EXCLAMATION MARK", '!'), ("QUOTATION MARK", '"'), ("NUMBER SIGN", '#'),
  ("DOLLAR SIGN", '$'), ("PERCENT SIGN", '%'), ("AMPERSAND", '&'), ("APOSTROPHE", Char.ofNat 39),
  ("LEFT PARENTHESIS", '('), ("RIGHT PARENTHESIS", ')'), ("ASTERISK", '*'), ("PLUS SIGN", '+'),
  ("COMMA", ','), ("HYPHEN-MINUS", '-'), ("FULL STOP", '.'), ("SOLIDUS", '/'), ("COLON", ':'),
  ("SEMICOLON", ';'), ("LESS-THAN SIGN", '<'), ("EQUALS SIGN", '='), ("GREATER-THAN SIGN", '>'),
  ("QUESTION MARK", '?'), ("COMMERCIAL AT", '@'), ("LEFT SQUARE BRACKET", '['),
  ("REVERSE SOLIDUS", '\\'), ("RIGHT SQUARE BRACKET", ']'), ("CIRCUMFLEX ACCENT", '^'),
  ("LOW LINE", '_'), ("GRAVE ACCENT", Char.ofNat 96), ("LEFT CURLY BRACKET", '\x7b'),
  ("VERTICAL LINE", '|'), ("RIGHT CURLY BRACKET", '\x7d'), ("TILDE", '~')]

def letter? (start name : List Char) : Option Char :=
  match Text.dropStart? start name with
  | some [c] => if 'A' ≤ c && c ≤ 'Z' then some c else none
  | _ => none

/-- The printable characters of the Basic Latin block by their names, in letters of any case. -/
def basicLatin? (name : String) : Option Char :=
  let name := name.toList.map Text.upperAscii
  match letter? "LATIN SMALL LETTER ".toList name, letter? "LATIN CAPITAL LETTER ".toList name with
  | some c, _ => some (Text.lowerAscii c)
  | none, some c => some c
  | none, none =>
    match Text.dropStart? "DIGIT ".toList name with
    | some word =>
      (digitWords.idxOf? (String.ofList word)).map fun n => Char.ofNat ('0'.toNat + n)
    | none => signs.lookup (String.ofList name)

/-- The names that are known where no other table is given. -/
instance basicLatin : CharacterNames := ⟨basicLatin?⟩

end CharacterNames

end PathRouting
