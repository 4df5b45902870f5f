import PathRouting.Pattern.Name

/-!
# Pattern trees

A pattern is a sequence of literal runs, parameters and optional groups. `Segment.render`
writes a tree back as pattern text.
-/
namespace PathRouting

inductive Segment where
  | literal (text : String)
  | param (name : String)
  /-- Parts that may be absent together. The group depends on the parameters that are its
  direct parts, each named once. -/
  | optional (dependsOn : List String) (parts : List Segment)
deriving Inhabited

namespace Segment

/-- The names of the parameters that stand directly in a sequence, each once and in the order
of first appearance. -/
def directNames (parts : List Segment) : List String :=
  parts.foldl (fun names part =>
    match part with
    | .param name => if names.contains name then names else names ++ [name]
    | _ => names) []

def group (parts : List Segment) : Segment := .optional (directNames parts) parts

mutual

def names : Segment → List String
  | .literal _ => []
  | .param name => [name]
  | .optional _ parts => namesOf parts

def namesOf : List Segment → List String
  | [] => []
  | part :: rest => names part ++ namesOf rest

end

mutual

def render : Segment → List Char
  | .literal text => text.toList
  | .param name => Pattern.placeholderOpen :: (name.toList ++ [Pattern.placeholderClose])
  | .optional _ parts => Pattern.groupOpen :: (renderAll parts ++ [Pattern.groupClose])

def renderAll : List Segment → List Char
  | [] => []
  | part :: rest => render part ++ renderAll rest

end

/-- Induction over a sequence and, for an optional group, over the sequence inside it. -/
@[elab_as_elim]
theorem sequence_induction {motive : List Segment → Prop} (nil : motive [])
    (literal : ∀ text rest, motive rest → motive (.literal text :: rest))
    (param : ∀ name rest, motive rest → motive (.param name :: rest))
    (optional : ∀ dependsOn parts rest, motive parts → motive rest →
      motive (.optional dependsOn parts :: rest)) : ∀ parts, motive parts
  | [] => nil
  | .literal text :: rest =>
    literal text rest (sequence_induction nil literal param optional rest)
  | .param name :: rest => param name rest (sequence_induction nil literal param optional rest)
  | .optional dependsOn parts :: rest =>
    optional dependsOn parts rest (sequence_induction nil literal param optional parts)
      (sequence_induction nil literal param optional rest)

@[simp] theorem namesOf_append (xs ys : List Segment) :
    namesOf (xs ++ ys) = namesOf xs ++ namesOf ys := by
  induction xs with
  | nil => rfl
  | cons x xs ih => simp [namesOf, ih]

@[simp] theorem renderAll_append (xs ys : List Segment) :
    renderAll (xs ++ ys) = renderAll xs ++ renderAll ys := by
  induction xs with
  | nil => rfl
  | cons x xs ih => simp [renderAll, ih]

end Segment

structure Pattern where
  source : String
  parts : List Segment
  file : Option String
deriving Inhabited

def Pattern.names (p : Pattern) : List String := Segment.namesOf p.parts

end PathRouting
