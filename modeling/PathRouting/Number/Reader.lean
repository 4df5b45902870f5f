import PathRouting.Number.Binary64
import PathRouting.Text.Blank
import PathRouting.Text.Digit

/-!
# Numbers read from text

Blanks around a number are cut, digits may be of any script, and single underscores may stand
between two digits.
-/
namespace PathRouting.Number

open PathRouting.Text

/-- The most digits that a written integer may have. -/
def digitLimit : Nat := 4300

def isSpacing (c : Char) : Bool := if c.toNat < 128 then isAsciiBlank c else isBlank c

def trim (s : List Char) : List Char :=
  ((s.dropWhile isSpacing).reverse.dropWhile isSpacing).reverse

def splitSign : List Char → Bool × List Char
  | '-' :: rest => (true, rest)
  | '+' :: rest => (false, rest)
  | s => (false, s)

def separatedDigits? : List Char → Option (List Nat)
  | [] => none
  | [c] => (digit? c).map ([·])
  | c :: '_' :: rest =>
    match digit? c, separatedDigits? rest with
    | some d, some ds => some (d :: ds)
    | _, _ => none
  | c :: rest =>
    match digit? c, separatedDigits? rest with
    | some d, some ds => some (d :: ds)
    | _, _ => none

def ofDigits (digits : List Nat) : Nat := digits.foldl (fun n d => 10 * n + d) 0

def integer? (s : List Char) : Option Int :=
  let (negative, body) := splitSign (trim s)
  match separatedDigits? body with
  | some digits =>
    if digits.length ≤ digitLimit then
      some (if negative then -(ofDigits digits : Int) else (ofDigits digits : Int))
    else none
  | none => none

/-- The text without underscores, each of which must stand between two ASCII digits. The first
argument is the character before the text. -/
def withoutUnderscores? : Char → List Char → Option (List Char)
  | before, [] => if before == '_' then none else some []
  | before, c :: rest =>
    if c == '_' then
      if (asciiDigit? before).isSome then withoutUnderscores? '_' rest else none
    else if before == '_' && (asciiDigit? c).isNone then none
    else (withoutUnderscores? c rest).map (c :: ·)

/-- A digit of another script becomes the ASCII digit of the same value. -/
def toAsciiDigit (c : Char) : Char :=
  match digit? c with
  | some d => Char.ofNat (48 + d)
  | none => c

def spanDigits (s : List Char) : List Nat × List Char :=
  ((s.takeWhile fun c => (asciiDigit? c).isSome).filterMap asciiDigit?,
    s.dropWhile fun c => (asciiDigit? c).isSome)

/-- The exponent part of a number, zero if there is none; `none` if it is malformed. -/
def exponent? : List Char → Option Int
  | [] => some 0
  | c :: rest =>
    if c == 'e' || c == 'E' then
      let (negative, body) := splitSign rest
      let (digits, after) := spanDigits body
      if digits.isEmpty || !after.isEmpty then none
      else some (if negative then -(ofDigits digits : Int) else (ofDigits digits : Int))
    else none

/-- Digits with at most one point among them and perhaps an exponent. -/
def decimal? (negative : Bool) (s : List Char) : Option Binary64 :=
  let (whole, rest) := spanDigits s
  let (fraction, rest) :=
    match rest with
    | '.' :: after => spanDigits after
    | _ => ([], rest)
  if whole.isEmpty && fraction.isEmpty then none
  else (exponent? rest).map fun e =>
    Binary64.ofDecimal negative (ofDigits (whole ++ fraction)) (e - (fraction.length : Int))

def float? (s : List Char) : Option Binary64 :=
  match withoutUnderscores? ' ' ((trim s).map toAsciiDigit) with
  | none => none
  | some body =>
    let (negative, rest) := splitSign body
    let word := String.ofList (rest.map Char.toLower)
    if word == "inf" || word == "infinity" then some (.infinity negative)
    else if word == "nan" then some .nan
    else decimal? negative rest

end PathRouting.Number
