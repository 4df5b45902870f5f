import PathRouting.Pattern.Canonical

/-!
# Chains of optional parts

Patterns of which every optional part is a literal text with a parameter behind it, and then the
next optional part.
-/
namespace PathRouting

open Pattern

structure Link where
  text : String
  name : String

structure Chain where
  head : String
  links : List Link

namespace Chain

/-- The pattern text of links, each inside the one before it. -/
def write : List Link → String
  | [] => ""
  | link :: rest => "(" ++ link.text ++ "<" ++ link.name ++ ">" ++ write rest ++ ")"

def source (c : Chain) : String := c.head ++ write c.links

def names (c : Chain) : List String := c.links.map Link.name

/-- The names of the longest beginning of a chain that are all among some. -/
def leading (c : Chain) (among : List String) : List String := c.names.takeWhile among.contains

def groups : List Link → List Segment
  | [] => []
  | link :: rest =>
    [.optional [link.name] (.literal link.text :: .param link.name :: groups rest)]

def parts (c : Chain) : List Segment :=
  (if c.head.isEmpty then [] else [.literal c.head]) ++ groups c.links

def pattern (c : Chain) : Pattern := ⟨c.source, c.parts, none⟩

/-- The literal texts of a chain are literal texts. Behind the head each one begins with a character
that neither goes on with a value nor begins a query string. -/
structure Separated (c : Chain) : Prop where
  head : c.head = "" ∨ isLiteralRun c.head.toList = true
  texts : ∀ link ∈ c.links, isLiteralRun link.text.toList = true
  apart : ∀ link ∈ c.links, ∃ first ∈ link.text.toList.head?,
    isNameChar first = false ∧ first ≠ '?'
  names : ∀ link ∈ c.links, isName link.name.toList = true

-- The first character is looked at, not searched for among all characters.
instance (c : Chain) : Decidable c.Separated :=
  decidable_of_iff ((c.head = "" ∨ isLiteralRun c.head.toList = true) ∧
    ∀ link ∈ c.links, isLiteralRun link.text.toList = true ∧
      (link.text.toList.head?.any fun first => !isNameChar first && first != '?') = true ∧
      isName link.name.toList = true) <| by
    simp only [Option.any_eq_true, Bool.and_eq_true, Bool.not_eq_true', bne_iff_ne, forall_and]
    constructor
    · rintro ⟨head, texts, apart, names⟩
      exact ⟨head, texts, apart, names⟩
    · rintro ⟨head, texts, apart, names⟩
      exact ⟨head, texts, apart, names⟩

end Chain

end PathRouting
