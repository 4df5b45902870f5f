import PathRouting.Text.Steps

/-!
# Blank characters

The white space that is cut from the ends of a number or a setting.
-/
namespace PathRouting.Text

/-- Where the property of being white space changes. -/
def blankSteps : List Nat := [
  9, 14, 28, 33, 133, 134, 160, 161, 5760, 5761, 8192, 8203,
  8232, 8234, 8239, 8240, 8287, 8288, 12288, 12289]

/-- White space of any script: the ASCII controls 9 to 13 and 28 to 31, and the separators. -/
def isBlank (c : Char) : Bool := inSteps blankSteps c.toNat

def isAsciiBlank (c : Char) : Bool :=
  c.toNat == 32 || (9 ≤ c.toNat && c.toNat ≤ 13)

def stripBlanks (s : List Char) : List Char :=
  ((s.dropWhile isBlank).reverse.dropWhile isBlank).reverse

end PathRouting.Text
