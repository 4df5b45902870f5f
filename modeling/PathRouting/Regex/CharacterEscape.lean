import PathRouting.Regex.Error
import PathRouting.Regex.Node
import PathRouting.Regex.Token
import PathRouting.Text.CharacterNames
import PathRouting.Text.Digit
import PathRouting.Text.Word

/-!
# Escapes

What a backslash and the character behind it stand for, with the digits or the name that
follow. Inside a character set no escape is an anchor or refers to a group.
-/
namespace PathRouting.Regex

open PathRouting.Text

/-- A mistake that lies a number of characters before what is left to read. -/
def failAt {α : Type} (kind : Mistake) (rest : List Token) (back : Nat) : Except Failure α :=
  .error (.mistake kind (Token.extent rest) back)

/-- The tokens before the first plain occurrence of a character, and those after it. -/
def splitAtPlain? (c : Char) : List Token → Option (List Token × List Token)
  | [] => none
  | t :: ts =>
    if t = .plain c then some ([], ts)
    else (splitAtPlain? c ts).map fun (before, after) => (t :: before, after)

/-- A name up to its terminator, which must be there and must not be the first character. -/
def readName (terminator : Char) (kind : String) (ts : List Token) :
    Except Failure (String × List Token) :=
  match splitAtPlain? terminator ts with
  | none =>
    if ts.isEmpty then failAt (.missingName kind) [] 0
    else failAt (.unterminatedName (String.singleton terminator)) [] (Token.extent ts)
  | some (before, rest) =>
    if before.isEmpty then failAt (.missingName kind) rest 1
    else .ok (Token.text before, rest)

def plainHexDigit? : Token → Option Char
  | .plain c => if (hexDigit? c).isSome then some c else none
  | .escaped _ => none

def plainOctalDigit? : Token → Option Char
  | .plain c => if '0' ≤ c && c ≤ '7' then some c else none
  | .escaped _ => none

def valueOf (base : Nat) (digits : List Char) : Nat :=
  digits.foldl (fun n c => base * n + (hexDigit? c).getD 0) 0

def readHexCode (letter : Char) (count : Nat) (ts : List Token) :
    Except Failure (Nat × List Token) :=
  let (digits, rest) := Token.takeChars plainHexDigit? count ts
  let escape := String.ofList ('\\' :: letter :: digits)
  if digits.length ≠ count then failAt (.incompleteEscape escape) rest (digits.length + 2)
  else
    let code := valueOf 16 digits
    if 0x10FFFF < code then failAt (.badEscape escape) rest (digits.length + 2)
    else .ok (code, rest)

variable [CharacterNames]

def readNamedCode (ts : List Token) : Except Failure (Nat × List Token) :=
  match ts with
  | .plain '\x7b' :: rest => do
    let (name, rest) ← readName '\x7d' "character name" rest
    match CharacterNames.named? name with
    | some c => return (c.toNat, rest)
    | none => failAt (.undefinedCharacter name) rest (name.length + 4)
  | _ => failAt .missingBrace ts 0

/-- A code of up to three octal digits, the first of which was read. -/
def readOctalCode (first : Char) (ts : List Token) : Except Failure (Nat × List Token) :=
  let (more, rest) := Token.takeChars plainOctalDigit? 2 ts
  let code := valueOf 8 (first :: more)
  if 0o377 < code then
    failAt (.octalTooLarge (String.ofList ('\\' :: first :: more))) rest (more.length + 2)
  else .ok (code, rest)

def simpleCode? (c : Char) : Option Nat :=
  match c with
  | 'a' => some 7
  | 'b' => some 8
  | 'f' => some 12
  | 'n' => some 10
  | 'r' => some 13
  | 't' => some 9
  | 'v' => some 11
  | '\\' => some 92
  | _ => none

def category? (c : Char) : Option SetItem :=
  match c with
  | 'd' => some (.category .digit false)
  | 'D' => some (.category .digit true)
  | 's' => some (.category .space false)
  | 'S' => some (.category .space true)
  | 'w' => some (.category .word false)
  | 'W' => some (.category .word true)
  | _ => none

def anchor? (c : Char) : Option Anchor :=
  match c with
  | 'A' => some .textStart
  | 'Z' => some .textEnd
  | 'b' => some .wordBoundary
  | 'B' => some .notWordBoundary
  | _ => none

def isAsciiLetter (c : Char) : Bool := ('a' ≤ c && c ≤ 'z') || ('A' ≤ c && c ≤ 'Z')

/-- The code of an escape that is neither a class nor an anchor nor a number. A letter that
means nothing is refused; any other character stands for itself. -/
def readCode (c : Char) (ts : List Token) : Except Failure (Nat × List Token) :=
  if c == 'x' then readHexCode c 2 ts
  else if c == 'u' then readHexCode c 4 ts
  else if c == 'U' then readHexCode c 8 ts
  else if c == 'N' then readNamedCode ts
  else if isAsciiLetter c then failAt (.badEscape (String.ofList ['\\', c])) ts 2
  else .ok (c.toNat, ts)

def readSetEscape (c : Char) (ts : List Token) : Except Failure (SetItem × List Token) :=
  match simpleCode? c, category? c with
  | some code, _ => .ok (.single code, ts)
  | none, some item => .ok (item, ts)
  | none, none =>
    if '0' ≤ c && c ≤ '7' then do
      let (code, rest) ← readOctalCode c ts
      return (.single code, rest)
    else if c == '8' || c == '9' then failAt (.badEscape (String.ofList ['\\', c])) ts 2
    else do
      let (code, rest) ← readCode c ts
      return (.single code, rest)

inductive Escape where
  | node (node : Node)
  | reference (number digits : Nat)

/-- A backslash and a digit other than zero: three octal digits are a code, and otherwise one
or two digits refer to a group. -/
def readNumber (first : Char) (ts : List Token) : Except Failure (Escape × List Token) :=
  match ts with
  | t :: rest =>
    match t.digit? with
    | none => .ok (.reference (valueOf 10 [first]) 1, ts)
    | some second =>
      match first ≤ '7' && second ≤ '7', rest with
      | true, u :: after =>
        match plainOctalDigit? u with
        | some third =>
          let code := valueOf 8 [first, second, third]
          if 0o377 < code then
            failAt (.octalTooLarge (String.ofList ['\\', first, second, third])) after 4
          else .ok (.node (.literal code), after)
        | none => .ok (.reference (valueOf 10 [first, second]) 2, rest)
      | _, _ => .ok (.reference (valueOf 10 [first, second]) 2, rest)
  | [] => .ok (.reference (valueOf 10 [first]) 1, [])

def readEscape (c : Char) (ts : List Token) : Except Failure (Escape × List Token) :=
  match anchor? c, category? c, simpleCode? c with
  | some kind, _, _ => .ok (.node (.anchor kind), ts)
  | none, some item, _ => .ok (.node (.oneOf false [item]), ts)
  | none, none, some code => .ok (.node (.literal code), ts)
  | none, none, none =>
    if c == '0' then do
      let (code, rest) ← readOctalCode c ts
      return (.node (.literal code), rest)
    else if '1' ≤ c && c ≤ '9' then readNumber c ts
    else do
      let (code, rest) ← readCode c ts
      return (.node (.literal code), rest)

end PathRouting.Regex
