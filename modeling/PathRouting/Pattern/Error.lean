import PathRouting.Pattern.Diagnostic

/-!
# What can be wrong with a pattern

Each cause has its message and its suggestions. Only a bracket without a partner has a place
in the pattern text.
-/
namespace PathRouting.Pattern

inductive Error where
  | unbalanced (position : Nat) (file : Option String)
  /-- The outermost group that is never closed. -/
  | unclosed (position : Nat) (file : Option String)
  | duplicateNames (names : List String) (file : Option String)
  | invalidCondition (name reason : String)
  | unsupportedCondition (name typeName : String)
  | emptyCondition (name : String)
  /-- The conditions are regular expressions by themselves but not when put together. -/
  | invalidWhole (reason : String) (file : Option String)
deriving DecidableEq

namespace Error

/-- Brackets concern the form of a pattern, everything else its meaning. -/
def kind : Error → Diagnostic.Kind
  | .unbalanced .. | .unclosed .. => .form
  | _ => .meaning

def message : Error → String
  | .unbalanced .. => "Unbalanced ')' outside of an optional group"
  | .unclosed .. => "Unclosed '(' optional group"
  | .duplicateNames names _ => "Duplicate parameter names: " ++ ", ".intercalate names
  | .invalidCondition name reason =>
    "Invalid condition for parameter '" ++ name ++ "': " ++ reason
  | .unsupportedCondition name typeName =>
    "Unsupported condition type for parameter '" ++ name ++ "': " ++ typeName
  | .emptyCondition name => "Empty value list in condition for parameter '" ++ name ++ "'"
  | .invalidWhole reason _ => "Pattern compiles to an invalid regex: " ++ reason

def suggestions : Error → List String
  | .unbalanced .. => ["Remove the stray ')'", "Open the group with '(' before it"]
  | .unclosed .. => ["Close the group with ')'"]
  | .duplicateNames .. => ["Give every parameter in a route a distinct name"]
  | .invalidCondition .. => ["Conditions are regex fragments, check the escaping"]
  | .unsupportedCondition .. => ["Use a regex string or a list of allowed values"]
  | .emptyCondition .. => []
  | .invalidWhole .. => []

def span : Error → Option Span
  | .unbalanced position _ | .unclosed position _ => some (.at position)
  | _ => none

def file : Error → Option String
  | .unbalanced _ file | .unclosed _ file | .duplicateNames _ file | .invalidWhole _ file => file
  | _ => none

def diagnostic (e : Error) : Diagnostic := ⟨e.kind, e.message, e.span, e.file, e.suggestions⟩

end Error

end PathRouting.Pattern
