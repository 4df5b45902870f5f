/-!
# Parameter names

A placeholder `<name>` holds an ASCII letter or underscore followed by ASCII letters, digits,
underscores and hyphens.
-/
namespace PathRouting.Pattern

def placeholderOpen : Char := '<'

def placeholderClose : Char := '>'

def groupOpen : Char := '('

def groupClose : Char := ')'

def nameSource : String := "[A-Za-z_][A-Za-z0-9_\\-]*"

def isLetter (c : Char) : Bool := ('a' ≤ c && c ≤ 'z') || ('A' ≤ c && c ≤ 'Z')

def isNameStart (c : Char) : Bool := isLetter c || c == '_'

/-- A character that may stand in a name, and the only kind that a parameter without a
condition matches. -/
def isNameChar (c : Char) : Bool := isLetter c || ('0' ≤ c && c ≤ '9') || c == '_' || c == '-'

def isName : List Char → Bool
  | [] => false
  | c :: rest => isNameStart c && rest.all isNameChar

theorem isNameChar_of_isNameStart {c : Char} (h : isNameStart c = true) :
    isNameChar c = true := by
  simp only [isNameStart, isNameChar, Bool.or_eq_true] at *
  rcases h with h | h <;> simp [h]

end PathRouting.Pattern
