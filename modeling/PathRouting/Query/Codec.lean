import PathRouting.Query.Percent
import PathRouting.Text.Case
import PathRouting.Text.Split
import PathRouting.Value.Entries
import PathRouting.Value.Text

/-!
# Query strings

A query string is a sequence of `name=value` fields joined by `&`. In reading, empty fields
are skipped, a field without `=` has an empty value, and the first of several values for a
name counts. In writing, absent values are left out.
-/
namespace PathRouting

namespace Query

open PathRouting.Text

def readField (field : List Char) : String × String :=
  let (name, value) := splitFirst '=' field
  (String.ofList (unescape name), String.ofList (unescape value))

def readFields (query : List Char) : List (String × String) :=
  ((splitAll '&' query).filter fun field => !field.isEmpty).map readField

/-- Fields of which only the first of each name is kept. -/
def keepFirst : List (String × String) → List (String × String) → List (String × String)
  | kept, [] => kept
  | kept, (name, value) :: rest =>
    if kept.any (fun e => e.1 == name) then keepFirst kept rest
    else keepFirst (kept ++ [(name, value)]) rest

def decode (query : String) : List (String × String) := keepFirst [] (readFields query.toList)

def writeField (field : String × String) : List Char :=
  escape field.1.toList ++ '=' :: escape field.2.toList

def writeFields (fields : List (String × String)) : List Char :=
  ['&'].intercalate (fields.map writeField)

/-- The fields for the entries of a mapping: names and values as texts, without absent
values. -/
def fieldsOf (params : Mapping Value) : List (String × String) :=
  params.filterMap fun (k, v) =>
    match v with
    | .null => none
    | v => some (k.text, v.text)

def encode (params : Mapping Value) : String := String.ofList (writeFields (fieldsOf params))

/-- The query string for a value, which is a mapping or counts as false. -/
def encodeValue (params : Value) : Except Misuse String := params.entriesOrNone.map encode

end Query

structure Codec where
  decode : String → List (String × String)
  encode : Mapping Value → String

namespace Codec

def standard : Codec := ⟨Query.decode, Query.encode⟩

/-- Set a name to a value; a name that is there keeps its place. -/
def setField (fields : List (String × String)) (name value : String) : List (String × String) :=
  match fields with
  | [] => [(name, value)]
  | (n, v) :: rest => if n = name then (n, value) :: rest else (n, v) :: setField rest name value

/-- A codec whose names are changed after reading. Where two names become the same, the later
value takes the place of the earlier one. -/
def mapNames (f : String → String) (c : Codec) : Codec :=
  { c with
    decode := fun query =>
      (c.decode query).foldl (fun fields (name, value) => setField fields (f name) value) [] }

end Codec

end PathRouting
