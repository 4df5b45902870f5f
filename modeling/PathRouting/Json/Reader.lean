import PathRouting.Json.Basic
import PathRouting.Number.Reader
import PathRouting.Value.Text

/-!
# Reading JSON text

The reader takes one document with white space around it. Where it stops, it says why and how
much of the text was left, from which line and column follow.
-/
namespace PathRouting.Json

open PathRouting.Text

inductive Cause where
  | expectingValue
  | expectingName
  | expectingColon
  | expectingComma
  | unterminatedString
  | controlCharacter
  | invalidEscape
  | invalidUnicodeEscape
  | extraData
  | byteOrderMark
  /-- An integer beyond the limit on digits; this one has no place in the text. -/
  | tooManyDigits (count : Nat)
deriving DecidableEq

def Cause.message : Cause → String
  | .expectingValue => "Expecting value"
  | .expectingName => "Expecting property name enclosed in double quotes"
  | .expectingColon => "Expecting ':' delimiter"
  | .expectingComma => "Expecting ',' delimiter"
  | .unterminatedString => "Unterminated string starting at"
  | .controlCharacter => "Invalid control character at"
  | .invalidEscape => "Invalid \\escape"
  | .invalidUnicodeEscape => "Invalid \\uXXXX escape"
  | .extraData => "Extra data"
  | .byteOrderMark => "Unexpected UTF-8 BOM (decode using utf-8-sig)"
  | .tooManyDigits count =>
    "Exceeds the limit (4300 digits) for integer string conversion: value has " ++
      Value.ofInt count ++ " digits; use sys.set_int_max_str_digits() to increase the limit"

/-- A cause and how many characters were left where it arose. -/
structure Stop where
  cause : Cause
  remaining : Nat
deriving DecidableEq

def stopAt {α : Type} (cause : Cause) (s : List Char) : Except Stop α := .error ⟨cause, s.length⟩

def isSpace (c : Char) : Bool := c == ' ' || c == '\t' || c == '\n' || c == '\r'

def skipSpace (s : List Char) : List Char := s.dropWhile isSpace

def unit? (a b c d : Char) : Option Nat :=
  match hexDigit? a, hexDigit? b, hexDigit? c, hexDigit? d with
  | some a, some b, some c, some d => some (((a * 16 + b) * 16 + c) * 16 + d)
  | _, _, _, _ => none

/-- The character of a unit that stands alone; half of a pair has none and is replaced. -/
def ofUnit (n : Nat) : Char :=
  if 0xD800 ≤ n && n < 0xE000 then Char.ofNat 0xFFFD else Char.ofNat n

def simpleEscape? (c : Char) : Option Char :=
  if c == '"' || c == '\\' || c == '/' then some c
  else if c == 'b' then some (Char.ofNat 8)
  else if c == 'f' then some (Char.ofNat 12)
  else if c == 'n' then some '\n'
  else if c == 'r' then some '\r'
  else if c == 't' then some '\t'
  else none

def prepend (c : Char) : Except Stop (List Char × List Char) → Except Stop (List Char × List Char)
  | .ok (cs, rest) => .ok (c :: cs, rest)
  | .error e => .error e

/-- The characters of a text up to its closing quote. The first argument is what was left at
the opening quote. -/
def readText (opened : Nat) : List Char → Except Stop (List Char × List Char)
  | [] => .error ⟨.unterminatedString, opened⟩
  | '"' :: rest => .ok ([], rest)
  | ['\\'] => .error ⟨.unterminatedString, opened⟩
  | '\\' :: 'u' :: a :: b :: c :: d :: '\\' :: 'u' :: e :: f :: g :: h :: i :: rest =>
    match unit? a b c d with
    | none => .error ⟨.invalidUnicodeEscape, rest.length + 12⟩
    | some high =>
      if 0xD800 ≤ high && high < 0xDC00 then
        match unit? e f g h with
        | none => .error ⟨.invalidUnicodeEscape, rest.length + 6⟩
        | some low =>
          if 0xDC00 ≤ low && low < 0xE000 then
            prepend (Char.ofNat (0x10000 + (high - 0xD800) * 0x400 + (low - 0xDC00)))
              (readText opened (i :: rest))
          else
            prepend (ofUnit high)
              (readText opened ('\\' :: 'u' :: e :: f :: g :: h :: i :: rest))
      else
        prepend (ofUnit high) (readText opened ('\\' :: 'u' :: e :: f :: g :: h :: i :: rest))
  | '\\' :: 'u' :: a :: b :: c :: d :: e :: rest =>
    match unit? a b c d with
    | none => .error ⟨.invalidUnicodeEscape, rest.length + 6⟩
    | some n => prepend (ofUnit n) (readText opened (e :: rest))
  | '\\' :: 'u' :: rest => .error ⟨.invalidUnicodeEscape, rest.length + 1⟩
  | '\\' :: c :: rest =>
    match simpleEscape? c with
    | some x => prepend x (readText opened rest)
    | none => .error ⟨.invalidEscape, rest.length + 2⟩
  | c :: rest =>
    if c.toNat < 32 then .error ⟨.controlCharacter, rest.length + 1⟩
    else prepend c (readText opened rest)

def readFraction : List Char → List Nat × List Char
  | '.' :: rest =>
    let (digits, after) := Number.spanDigits rest
    if digits.isEmpty then ([], '.' :: rest) else (digits, after)
  | s => ([], s)

def readExponent (s : List Char) : Option Int × List Char :=
  match s with
  | c :: rest =>
    if c == 'e' || c == 'E' then
      let (negative, body) := Number.splitSign rest
      let (digits, after) := Number.spanDigits body
      if digits.isEmpty then (none, s)
      else
        (some (if negative then -(Number.ofDigits digits : Int) else Number.ofDigits digits), after)
    else (none, s)
  | [] => (none, s)

def readNumber (negative : Bool) (start : List Char) (s : List Char) :
    Except Stop (Json × List Char) :=
  let whole? : Option (List Nat × List Char) :=
    match s with
    | '0' :: rest => some ([0], rest)
    | _ =>
      let (digits, rest) := Number.spanDigits s
      if digits.isEmpty then none else some (digits, rest)
  match whole? with
  | none => stopAt .expectingValue start
  | some (whole, rest) =>
    let (fraction, rest) := readFraction rest
    let (exponent, rest) := readExponent rest
    if fraction.isEmpty && exponent.isNone then
      if Number.digitLimit < whole.length then stopAt (.tooManyDigits whole.length) start
      else
        let n : Int := Number.ofDigits whole
        .ok (.int (if negative then -n else n), rest)
    else
      .ok (.float (Binary64.ofDecimal negative (Number.ofDigits (whole ++ fraction))
        (exponent.getD 0 - (fraction.length : Int))), rest)

def readScalar (s : List Char) : Except Stop (Json × List Char) :=
  match s with
  | 'n' :: 'u' :: 'l' :: 'l' :: rest => .ok (.null, rest)
  | 't' :: 'r' :: 'u' :: 'e' :: rest => .ok (.bool true, rest)
  | 'f' :: 'a' :: 'l' :: 's' :: 'e' :: rest => .ok (.bool false, rest)
  | 'N' :: 'a' :: 'N' :: rest => .ok (.float .nan, rest)
  | 'I' :: 'n' :: 'f' :: 'i' :: 'n' :: 'i' :: 't' :: 'y' :: rest =>
    .ok (.float (.infinity false), rest)
  | '-' :: 'I' :: 'n' :: 'f' :: 'i' :: 'n' :: 'i' :: 't' :: 'y' :: rest =>
    .ok (.float (.infinity true), rest)
  | '-' :: rest => readNumber true s rest
  | _ => readNumber false s s

mutual

/-- One value at the head of the text. The first argument bounds the depth of the reading. -/
def readValue : Nat → List Char → Except Stop (Json × List Char)
  | 0, s => stopAt .expectingValue s
  | fuel + 1, s =>
    match s with
    | '"' :: rest => do
      let (cs, rest) ← readText s.length rest
      return (.str (String.ofList cs), rest)
    | '[' :: rest =>
      let rest := skipSpace rest
      match rest with
      | ']' :: rest => .ok (.arr [], rest)
      | _ => do
        let (items, rest) ← readItems fuel rest
        return (.arr items, rest)
    | '\x7b' :: rest =>
      let rest := skipSpace rest
      match rest with
      | '\x7d' :: rest => .ok (.obj [], rest)
      | _ => do
        let (members, rest) ← readMembers fuel [] rest
        return (.obj members, rest)
    | _ => readScalar s

/-- The items of an array up to and with its closing bracket. -/
def readItems : Nat → List Char → Except Stop (List Json × List Char)
  | 0, s => stopAt .expectingValue s
  | fuel + 1, s => do
    let (x, rest) ← readValue fuel s
    match skipSpace rest with
    | ']' :: rest => return ([x], rest)
    | ',' :: rest =>
      let (xs, rest) ← readItems fuel (skipSpace rest)
      return (x :: xs, rest)
    | rest => stopAt .expectingComma rest

/-- The members of an object up to and with its closing bracket, added to those read before. -/
def readMembers :
    Nat → List (String × Json) → List Char → Except Stop (List (String × Json) × List Char)
  | 0, _, s => stopAt .expectingName s
  | fuel + 1, members, s =>
    match s with
    | '"' :: rest => do
      let (name, rest) ← readText s.length rest
      match skipSpace rest with
      | ':' :: rest =>
        let (x, rest) ← readValue fuel (skipSpace rest)
        let members := setMember members (String.ofList name) x
        match skipSpace rest with
        | '\x7d' :: rest => return (members, rest)
        | ',' :: rest => readMembers fuel members (skipSpace rest)
        | rest => stopAt .expectingComma rest
      | rest => stopAt .expectingColon rest
    | _ => stopAt .expectingName s

end

def readAll (s : List Char) : Except Stop Json :=
  if s.head? == some (Char.ofNat 0xFEFF) then stopAt .byteOrderMark s
  else do
    let (x, rest) ← readValue (2 * s.length + 2) (skipSpace s)
    match skipSpace rest with
    | [] => return x
    | rest => stopAt .extraData rest

/-- The line, counted from one, and the column, counted from one, of a place in a text. -/
def lineAndColumn (before : List Char) : Nat × Nat :=
  (before.count '\n' + 1, (before.reverse.takeWhile (· != '\n')).length + 1)

def Stop.message (source : List Char) (e : Stop) : String :=
  match e.cause with
  | .tooManyDigits _ => e.cause.message
  | _ =>
    let place := source.length - e.remaining
    let (line, column) := lineAndColumn (source.take place)
    e.cause.message ++ ": line " ++ Value.ofInt line ++ " column " ++ Value.ofInt column ++
      " (char " ++ Value.ofInt place ++ ")"

def read (s : String) : Except Stop Json := readAll s.toList

end PathRouting.Json
