import PathRouting.Text.Quoted
import PathRouting.Value.Text

/-!
# Diagnostics

What is wrong with a pattern, where, and what could be done about it.
-/
namespace PathRouting

/-- A place in a pattern text: from `start` up to `stop`, at a line and column. -/
structure Span where
  start : Int
  stop : Int
  line : Int
  column : Int
deriving DecidableEq

def Span.at (position : Nat) : Span := ⟨position, position + 1, 1, position + 1⟩

def Span.text (s : Span) : String :=
  "Line " ++ Value.ofInt s.line ++ ":" ++ Value.ofInt s.column ++ " (pos " ++ Value.ofInt s.start ++
    "-" ++ Value.ofInt s.stop ++ ")"

namespace Diagnostic

inductive Kind where
  | general
  | form
  | meaning
deriving DecidableEq

def Kind.name : Kind → String
  | .general => "PatternDiagnostic"
  | .form => "PatternSyntaxError"
  | .meaning => "PatternSemanticError"

end Diagnostic

structure Diagnostic where
  kind : Diagnostic.Kind
  message : String
  span : Option Span
  file : Option String
  suggestions : List String
deriving DecidableEq

namespace Diagnostic

def text (d : Diagnostic) : String :=
  match d.span with
  | some span => d.message ++ " (" ++ span.text ++ ")"
  | none => d.message

/-- The line that points at the place, with the file if its name is known and not empty. -/
def pointer (d : Diagnostic) : List String :=
  match d.file, d.span with
  | some file, some span =>
    if file.isEmpty then ["  --> " ++ span.text]
    else ["  --> " ++ file ++ ":" ++ Value.ofInt span.line ++ ":" ++ Value.ofInt span.column]
  | none, some span => ["  --> " ++ span.text]
  | _, none => []

def advice (d : Diagnostic) : List String :=
  if d.suggestions.isEmpty then []
  else "\nSuggestions:" :: d.suggestions.zipIdx.map fun (s, i) =>
    "  " ++ Value.ofInt (i + 1) ++ ") " ++ s

def format (d : Diagnostic) : String :=
  "\n".intercalate ((d.kind.name ++ ": " ++ d.message) :: (d.pointer ++ d.advice))

def quotedOption : Option String → String
  | some s => Text.quoted s
  | none => "None"

def inspect (d : Diagnostic) : String :=
  d.kind.name ++ "(message=" ++ Text.quoted d.message ++ ", span=" ++
    (d.span.map Span.text).getD "None" ++ ", file=" ++ quotedOption d.file ++ ", suggestions=[" ++
    ", ".intercalate (d.suggestions.map Text.quoted) ++ "])"

end Diagnostic

end PathRouting
