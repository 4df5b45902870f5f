import Mathlib.Data.List.Forall2
import PathRouting.Query.Codec
import PathRouting.Text.Replacement

/-!
# Query strings as forms write them

What a query string is written as and read as, said of its bytes and fields. A name or a value is
written byte by byte. A query string is read piece by piece, and what the bytes of a name or a
value spell is its text.
-/
namespace PathRouting.Query

open PathRouting.Text

def formByte (b : UInt8) : List Char :=
  if isUnreserved (Char.ofNat b.toNat) then [Char.ofNat b.toNat]
  else if b = 0x20 then ['+']
  else ['%', upperHexDigit (b.toNat / 16), upperHexDigit (b.toNat % 16)]

def formText (s : String) : List Char := s.toUTF8.data.toList.flatMap formByte

def formField (field : String × String) : List Char :=
  formText field.1 ++ '=' :: formText field.2

def form (fields : List (String × String)) : List Char :=
  ['&'].intercalate (fields.map formField)

/-- A query string with its mark, if it is not empty. -/
def marked (query : String) : String := if query.isEmpty then "" else "?" ++ query

def ReadsText (written : List Char) (text : String) : Prop := Spells (units written) text.toList

/-- What a piece is read as. Without a `=` all of it is the name. -/
def ReadsField (piece : List Char) (field : String × String) : Prop :=
  ReadsText (piece.takeWhile (· ≠ '=')) field.1 ∧
    ReadsText (piece.dropWhile (· ≠ '=')).tail field.2

/-- What a query string is read as. -/
def Reads (query : List Char) (fields : List (String × String)) : Prop :=
  List.Forall₂ ReadsField ((query.splitOn '&').filter (· ≠ [])) fields

/-- The entries that are not absent, with the texts of their values. -/
def presentFields (entries : List (String × Value)) : List (String × String) :=
  entries.filterMap fun (name, value) =>
    match value with
    | .null => none
    | value => some (name, value.text)

end PathRouting.Query
