import PathRouting.Regex.Flag

/-!
# The structure of a regular expression
-/
namespace PathRouting.Regex

inductive Category where
  | digit
  | space
  | word
deriving DecidableEq

/-- A member of a character set. Characters are given by their codes, some of which belong to
no character. -/
inductive SetItem where
  | single (code : Nat)
  | range (first last : Nat)
  | category (kind : Category) (negated : Bool)
deriving DecidableEq

inductive Anchor where
  /-- The start of the text, or of a line. -/
  | lineStart
  /-- The end of the text, also before a final line break, or the end of a line. -/
  | lineEnd
  | textStart
  | textEnd
  | wordBoundary
  | notWordBoundary
deriving DecidableEq

/-- How often a repetition tries its body: as often as possible, as rarely as possible, or as
often as possible without reconsidering. -/
inductive Style where
  | greedy
  | lazy
  | possessive
deriving DecidableEq

inductive Node where
  | empty
  | literal (code : Nat)
  /-- Any character, but a line break only if the mode says so. -/
  | any
  | oneOf (negated : Bool) (items : List SetItem)
  | anchor (kind : Anchor)
  | backreference (number : Nat)
  | sequence (first second : Node)
  | choice (first second : Node)
  /-- A group, which captures if it has a number. -/
  | group (number : Option Nat) (body : Node)
  | scoped (added removed : List Flag) (body : Node)
  /-- A group that keeps its first way to match. -/
  | atomic (body : Node)
  /-- A condition on the text ahead or behind, which takes no text. -/
  | look (behind negated : Bool) (body : Node)
  /-- A choice by whether a group has captured. -/
  | conditional (number : Nat) (yes no : Node)
  | repetition (style : Style) (least : Nat) (most : Option Nat) (body : Node)
deriving DecidableEq, Inhabited

namespace Node

def ofList : List Node → Node
  | [] => .empty
  | [x] => x
  | x :: rest => .sequence x (ofList rest)

/-- The first expression of a list that can be matched in a way that lets the rest match. -/
def ofAlternatives : List Node → Node
  | [] => .empty
  | [x] => x
  | x :: rest => .choice x (ofAlternatives rest)

end Node

end PathRouting.Regex
