import PathRouting.Regex.Node
import PathRouting.Text.Blank
import PathRouting.Text.Case
import PathRouting.Text.Digit
import PathRouting.Text.Word

/-!
# Which characters a literal or a set takes
-/
namespace PathRouting.Regex

open PathRouting.Text

def Category.holds (unicode : Bool) (kind : Category) (c : Char) : Bool :=
  match kind with
  | .digit => if unicode then isDigit c else (asciiDigit? c).isSome
  | .space => if unicode then isBlank c else isAsciiBlank c
  | .word => (if unicode then isAlphanumeric c else isAsciiAlphanumeric c) || c == '_'

/-- Small letters that share their capital letter. -/
def sharedCapitals : List (List Nat) := [
  [0x69, 0x131], [0x73, 0x17F], [0xB5, 0x3BC], [0x345, 0x3B9, 0x1FBE], [0x390, 0x1FD3],
  [0x3B0, 0x1FE3], [0x3B2, 0x3D0], [0x3B5, 0x3F5], [0x3B8, 0x3D1], [0x3BA, 0x3F0],
  [0x3C0, 0x3D6], [0x3C1, 0x3F1], [0x3C2, 0x3C3], [0x3C6, 0x3D5], [0x432, 0x1C80],
  [0x434, 0x1C81], [0x43E, 0x1C82], [0x441, 0x1C83], [0x442, 0x1C84, 0x1C85], [0x44A, 0x1C86],
  [0x463, 0x1C87], [0xA64B, 0x1C88], [0x1E61, 0x1E9B], [0xFB05, 0xFB06]]

def lowerCase (unicode : Bool) (c : Char) : Char :=
  if unicode then lowerSimple c else lowerAscii c

def lowerCode (unicode : Bool) (code : Nat) : Nat :=
  if code.isValidChar then (lowerCase unicode (Char.ofNat code)).toNat else code

/-- The small letters that a character equals when case is ignored. -/
def smallVariants (unicode : Bool) (c : Char) : List Nat :=
  let small := (lowerCase unicode c).toNat
  if unicode then (sharedCapitals.find? (·.contains small)).getD [small] else [small]

/-- The codes whose lower case is the given one. -/
def withLower (unicode : Bool) (small : Nat) : List Nat :=
  if unicode then
    let capitals := lowerRuns.filterMap fun r =>
      let code := ((small : Int) - r.shift).toNat
      if r.apply? code == some small then some code else none
    small :: capitals ++ if small == 0x69 then [0x130] else []
  else [small, (upperAscii (Char.ofNat small)).toNat]

def literalHolds (mode : Mode) (code : Nat) (c : Char) : Bool :=
  if mode.ignoreCase then
    (smallVariants mode.unicode c).contains (lowerCode mode.unicode code)
  else c.toNat == code

def SetItem.holds (mode : Mode) (item : SetItem) (c : Char) : Bool :=
  match item with
  | .single code => literalHolds mode code c
  | .range first last =>
    if mode.ignoreCase then
      ((smallVariants mode.unicode c).flatMap (withLower mode.unicode)).any
        fun code => first ≤ code && code ≤ last
    else first ≤ c.toNat && c.toNat ≤ last
  | .category kind negated =>
    kind.holds mode.unicode (if mode.ignoreCase then lowerCase mode.unicode c else c) != negated

def setHolds (mode : Mode) (negated : Bool) (items : List SetItem) (c : Char) : Bool :=
  items.any (·.holds mode c) != negated

def sameCharacter (mode : Mode) (x y : Char) : Bool :=
  if mode.ignoreCase then lowerCase mode.unicode x == lowerCase mode.unicode y else x == y

end PathRouting.Regex
