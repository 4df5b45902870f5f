import PathRouting.Pattern.Segment

/-!
# Canonical trees

The trees that pattern texts are read into: literal runs are as long as they can be, hold
nothing that could be read in another way, and groups know their direct parameters.
-/
namespace PathRouting

namespace Pattern

def startsWithName (s : List Char) : Bool :=
  let name := s.takeWhile isNameChar
  isName name && (s.drop name.length).head? == some placeholderClose

def holdsPlaceholder : List Char → Bool
  | [] => false
  | c :: rest => (c == placeholderOpen && startsWithName rest) || holdsPlaceholder rest

def isLiteralRun (s : List Char) : Bool :=
  !s.isEmpty && !s.contains groupOpen && !s.contains groupClose && !holdsPlaceholder s

end Pattern

namespace Segment

def startsLiterally : List Segment → Bool
  | .literal _ :: _ => true
  | _ => false

mutual

def isCanonical : Segment → Bool
  | .literal text => Pattern.isLiteralRun text.toList
  | .param name => Pattern.isName name.toList
  | .optional dependsOn parts => dependsOn == directNames parts && allCanonical parts

/-- Whether a sequence is as reading leaves it: no two literal runs stand side by side. -/
def allCanonical : List Segment → Bool
  | [] => true
  | part :: rest =>
    isCanonical part && !(startsLiterally [part] && startsLiterally rest) && allCanonical rest

end

def paramName? : Segment → Option String
  | .param name => some name
  | _ => none

/-- Canonical sequences, each condition in full. -/
inductive Canonical : List Segment → Prop where
  | nil : Canonical []
  | literal {text : String} {rest : List Segment} : text.toList ≠ [] →
      Pattern.groupOpen ∉ text.toList → Pattern.groupClose ∉ text.toList →
      (∀ before name after, Pattern.isName name = true → text.toList ≠
        before ++ Pattern.placeholderOpen :: (name ++ Pattern.placeholderClose :: after)) →
      (∀ other, rest.head? ≠ some (.literal other)) → Canonical rest →
      Canonical (.literal text :: rest)
  | param {name : String} {rest : List Segment} : Pattern.isName name.toList = true →
      Canonical rest → Canonical (.param name :: rest)
  | optional {dependsOn : List String} {parts rest : List Segment} :
      dependsOn = (parts.filterMap paramName?).eraseDups → Canonical parts → Canonical rest →
      Canonical (.optional dependsOn parts :: rest)

end Segment

end PathRouting
