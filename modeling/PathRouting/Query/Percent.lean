import PathRouting.Text.Digit
import PathRouting.Text.Utf8

/-!
# Percent escapes

Outside letters, digits and four marks, a text is written as the bytes of its characters, each
as a percent sign and two hexadecimal digits, but for the blank, which is written as a plus.
-/
namespace PathRouting.Query

open PathRouting.Text

def isUnreserved (c : Char) : Bool :=
  ('a' ≤ c && c ≤ 'z') || ('A' ≤ c && c ≤ 'Z') || ('0' ≤ c && c ≤ '9') ||
    c == '_' || c == '.' || c == '-' || c == '~'

def escapeByte (b : Nat) : List Char := ['%', upperHexDigit (b / 16), upperHexDigit (b % 16)]

def escapeChar (c : Char) : List Char :=
  if isUnreserved c then [c]
  else if c == ' ' then ['+']
  else (utf8Bytes c).flatMap escapeByte

def escape (s : List Char) : List Char := s.flatMap escapeChar

def plainUnit (c : Char) : Text.ByteOrChar :=
  if c == '+' then .byte 0x20 else if c.toNat < 128 then .byte c.toNat else .whole c

/-- The bytes and characters of a written text. A percent sign without two digits behind it
stands for itself. -/
def units : List Char → List Text.ByteOrChar
  | [] => []
  | '%' :: high :: low :: rest =>
    match hexDigit? high, hexDigit? low with
    | some a, some b => .byte (16 * a + b) :: units rest
    | _, _ => plainUnit '%' :: units (high :: low :: rest)
  | c :: rest => plainUnit c :: units rest

def unescape (s : List Char) : List Char := readUnits .idle (units s)

end PathRouting.Query
