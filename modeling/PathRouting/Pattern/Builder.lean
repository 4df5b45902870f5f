import PathRouting.Failure
import PathRouting.Pattern.Segment
import PathRouting.Value.Entries

/-!
# From a tree to a path

A builder puts values into the places of a pattern. A parameter takes the value it is given,
else its default, else nothing; an absent value counts as not given. An optional group is
left out unless one of its direct parameters is given a value other than its default.
-/
namespace PathRouting.Pattern

def givenText? (params : Mapping Value) (name : String) : Option String :=
  match Mapping.named? params name with
  | none | some .null => none
  | some v => some v.text

/-- Whether a parameter is given a value that differs from its default. -/
def isSupplied (defaults : Mapping String) (params : Mapping Value) (name : String) : Bool :=
  match givenText? params name with
  | none => false
  | some text => Mapping.named? defaults name != some text

mutual

def buildPart (defaults : Mapping String) (params : Mapping Value) : Segment → String
  | .literal text => text
  | .param name =>
    match givenText? params name with
    | some text => text
    | none => (Mapping.named? defaults name).getD ""
  | .optional dependsOn parts =>
    if dependsOn.any (isSupplied defaults params) then buildParts defaults params parts else ""

def buildParts (defaults : Mapping String) (params : Mapping Value) : List Segment → String
  | [] => ""
  | part :: rest => buildPart defaults params part ++ buildParts defaults params rest

end

/-- Whether building a part has to look at the parameters at all. -/
def consultsParams : Segment → Bool
  | .literal _ => false
  | .param _ => true
  | .optional dependsOn _ => !dependsOn.isEmpty

structure Builder where
  pattern : Pattern
  defaults : Mapping String

namespace Builder

def defaultTexts (defaults : Value) : Except Misuse (Mapping String) :=
  defaults.entriesOrNone.map (Mapping.mapValues Value.text)

def ofPattern (p : Pattern) (defaults : Value) : Except Misuse Builder :=
  (defaultTexts defaults).map fun texts => ⟨p, texts⟩

def build (b : Builder) (params : Mapping Value) : String :=
  buildParts b.defaults params b.pattern.parts

/-- Build a path from any value. One that counts as false gives no parameters; one that is no
mapping can be used only where no parameter is looked at. -/
def buildFrom (b : Builder) (params : Value) : Except Misuse String :=
  if !params.truthy then .ok (b.build [])
  else match params with
    | .mapping es => .ok (b.build es)
    | v => if b.pattern.parts.any consultsParams then .error (v.missing "get") else .ok (b.build [])

def inspect (b : Builder) : String := "PathBuilder(" ++ Text.quoted b.pattern.source ++ ")"

end Builder

end PathRouting.Pattern
