import PathRouting.Number.Reader
import PathRouting.Text.Split
import PathRouting.Value.Basic

/-!
# What plain texts stand for

A plain text that looks like a truth value, a number or nothing at all is one. Numbers may have
underscores anywhere behind their first digit; integers may be binary, octal, hexadecimal or in
base sixty. A floating-point number must have a point.
-/
namespace PathRouting.Yaml

open PathRouting.Number

inductive ScalarKind where
  | null
  | bool
  | int
  | float
  | str
  | merge
  | value
deriving DecidableEq

def trueWords : List String := ["yes", "true", "on"]

def falseWords : List String := ["no", "false", "off"]

/-- The ways to write a word: in lower case, with a capital, or in upper case. -/
def spellings (word : String) : List String :=
  match word.toList with
  | [] => [word]
  | c :: rest =>
    [word, String.ofList (c.toUpper :: rest), String.ofList (word.toList.map Char.toUpper)]

def isWord (words : List String) (text : String) : Bool :=
  words.any fun word => (spellings word).contains text

def isDigitBelow (base : Nat) (c : Char) : Bool :=
  c == '_' || ((Text.asciiDigit? c).any fun d => decide (d < base))

def isHexDigit (c : Char) : Bool := c == '_' || (Text.hexDigit? c).isSome

def startsWithDigit (s : List Char) : Bool := s.head?.any fun c => (Text.asciiDigit? c).isSome

/-- The parts of a number in base sixty, of which there are at least two. The parts behind the
first have one or two digits and are below sixty. -/
def isSixtieth (s : List Char) : Bool :=
  match s with
  | [a] => (Text.asciiDigit? a).isSome
  | [a, b] => ((Text.asciiDigit? a).any fun d => decide (d < 6)) && (Text.asciiDigit? b).isSome
  | _ => false

def isBaseSixty (s : List Char) : Bool :=
  match Text.splitAll ':' s with
  | first :: second :: rest =>
    startsWithDigit first && first.all (isDigitBelow 10) && (second :: rest).all isSixtieth
  | _ => false

def isIntegerBody (s : List Char) : Bool :=
  match s with
  | ['0'] => true
  | '0' :: 'b' :: digits => !digits.isEmpty && digits.all (isDigitBelow 2)
  | '0' :: 'x' :: digits => !digits.isEmpty && digits.all isHexDigit
  | '0' :: digits => !digits.isEmpty && digits.all (isDigitBelow 8)
  | _ => startsWithDigit s && (s.all (isDigitBelow 10) || isBaseSixty s)

def isExponent (s : List Char) : Bool :=
  match s with
  | [] => true
  | e :: sign :: digits =>
    (e == 'e' || e == 'E') && (sign == '+' || sign == '-') && !digits.isEmpty &&
      digits.all fun c => (Text.asciiDigit? c).isSome
  | _ => false

/-- Whether a text without its sign is a floating-point number that begins with a digit. -/
def isFloatBody (s : List Char) : Bool :=
  match Text.splitFirst? '.' s with
  | none => false
  | some (whole, rest) =>
    let (fraction, exponent) := rest.span (isDigitBelow 10)
    (startsWithDigit whole && whole.all (isDigitBelow 10) &&
      fraction.all (isDigitBelow 10) && isExponent exponent) ||
    (isBaseSixty whole && exponent.isEmpty)

def isPointFloat (s : List Char) : Bool :=
  match s with
  | '.' :: rest => startsWithDigit rest && isExponent (rest.span (isDigitBelow 10)).2
  | _ => false

/-- Whether a text is a floating-point number. Infinity may have a sign. -/
def isFloat (s : List Char) : Bool :=
  let body := (splitSign s).2
  isFloatBody body || isPointFloat s ||
    (match body with
      | '.' :: word => isWord ["inf"] (String.ofList word)
      | _ => false) ||
    (match s with
      | '.' :: word => ["nan", "NaN", "NAN"].contains (String.ofList word)
      | _ => false)

def scalarKind (text : String) : ScalarKind :=
  let s := text.toList
  if text.isEmpty || text == "~" || isWord ["null"] text then .null
  else if isWord (trueWords ++ falseWords) text then .bool
  else if isFloat s then .float
  else if isIntegerBody (splitSign s).2 then .int
  else if text == "<<" then .merge
  else if text == "=" then .value
  else .str

def digitsIn (base : Nat) (s : List Char) : Nat :=
  (s.filterMap Text.hexDigit?).foldl (fun n d => n * base + d) 0

def fromSixty (parts : List Nat) : Nat := parts.foldl (fun n d => n * 60 + d) 0

def integerBody (s : List Char) : Nat :=
  match s.filter (· != '_') with
  | '0' :: 'b' :: digits => digitsIn 2 digits
  | '0' :: 'x' :: digits => digitsIn 16 digits
  | '0' :: digits => digitsIn 8 digits
  | digits => fromSixty ((Text.splitAll ':' digits).map (digitsIn 10))

def integerValue (text : String) : Int :=
  let (negative, body) := splitSign text.toList
  if negative then -(integerBody body : Int) else integerBody body

/-- The value of a floating-point number in base sixty: its last part has a fraction. -/
def sixtyFloat (negative : Bool) (s : List Char) : Binary64 :=
  let (whole, fraction) := Text.splitFirst '.' s
  let parts := (Text.splitAll ':' whole).map (digitsIn 10)
  Binary64.ofDecimal negative (fromSixty parts * Nat.pow 10 fraction.length + digitsIn 10 fraction)
    (-(fraction.length : Int))

def floatValue (text : String) : Binary64 :=
  let (negative, body) := splitSign (text.toList.filter (· != '_'))
  let word := String.ofList (body.map Char.toLower)
  if word == ".inf" then .infinity negative
  else if word == ".nan" then .nan
  else if body.contains ':' then sixtyFloat negative body
  else (decimal? negative body).getD .nan

end PathRouting.Yaml
