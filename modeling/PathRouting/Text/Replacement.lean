import PathRouting.Text.Utf8

/-!
# What bytes spell

The characters of a sequence of bytes, said without reading it byte by byte. Where no character
stands, the longest beginning of one, or else a single byte, is replaced.
-/
namespace PathRouting.Text

/-- Bytes that a character begins with but does not end with. -/
def Begins (bytes : List Nat) : Prop := ∃ c rest, rest ≠ [] ∧ utf8Bytes c = bytes ++ rest

/-- Bytes that are replaced together, before what follows them. -/
structure Broken (bytes : List Nat) (rest : List ByteOrChar) : Prop where
  nonempty : bytes ≠ []
  started : bytes.length = 1 ∨ Begins bytes
  longest : ∀ b more, rest = .byte b :: more → ¬Begins (bytes ++ [b])
  incomplete : ∀ c more, bytes.map .byte ++ rest ≠ (utf8Bytes c).map .byte ++ more

/-- The text that bytes and whole characters spell. -/
inductive Spells : List ByteOrChar → List Char → Prop where
  | nil : Spells [] []
  | whole (c : Char) {rest : List ByteOrChar} {text : List Char} : Spells rest text →
      Spells (.whole c :: rest) (c :: text)
  | char (c : Char) {rest : List ByteOrChar} {text : List Char} : Spells rest text →
      Spells ((utf8Bytes c).map .byte ++ rest) (c :: text)
  | broken {bytes : List Nat} {rest : List ByteOrChar} {text : List Char} : Broken bytes rest →
      Spells rest text → Spells (bytes.map .byte ++ rest) (replacement :: text)

end PathRouting.Text
