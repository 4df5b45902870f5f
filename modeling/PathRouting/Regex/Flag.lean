/-!
# Flags of a regular expression

Flags are switched on for a whole expression at its start, or on and off inside a group.
-/
namespace PathRouting.Regex

inductive Flag where
  | ignoreCase
  | locale
  | multiLine
  | dotAll
  | verbose
  | ascii
  | template
  | unicode
deriving DecidableEq

namespace Flag

def ofLetter? (c : Char) : Option Flag :=
  match c with
  | 'i' => some .ignoreCase
  | 'L' => some .locale
  | 'm' => some .multiLine
  | 's' => some .dotAll
  | 'x' => some .verbose
  | 'a' => some .ascii
  | 't' => some .template
  | 'u' => some .unicode
  | _ => none

/-- The flags that say which characters count as letters, digits and blanks. Only one of them
can be in force. -/
def selectsAlphabet : Flag → Bool
  | .ascii | .locale | .unicode => true
  | _ => false

end Flag

structure Mode where
  ignoreCase : Bool
  multiLine : Bool
  dotAll : Bool
  /-- Characters of all scripts are classified, and not those of ASCII alone. -/
  unicode : Bool
deriving DecidableEq

def Mode.plain : Mode := ⟨false, false, false, false⟩

def Mode.combine (before : Bool) (flag : Flag) (added removed : List Flag) : Bool :=
  (before || added.contains flag) && !removed.contains flag

def Mode.within (mode : Mode) (added removed : List Flag) : Mode where
  ignoreCase := combine mode.ignoreCase .ignoreCase added removed
  multiLine := combine mode.multiLine .multiLine added removed
  dotAll := combine mode.dotAll .dotAll added removed
  unicode := if added.contains .ascii then false else mode.unicode || added.contains .unicode

@[simp] theorem Mode.within_nil (mode : Mode) : mode.within [] [] = mode := by
  simp [within, combine]

end PathRouting.Regex
