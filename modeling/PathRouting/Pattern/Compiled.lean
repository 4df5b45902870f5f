import PathRouting.Json.OfValue
import PathRouting.Pattern.Builder
import PathRouting.Pattern.Matcher
import PathRouting.Pattern.Parser

/-!
# Compiled patterns

A compiled pattern matches and builds paths. Its descriptor holds all that is needed to do so
elsewhere.
-/
namespace PathRouting

namespace Segment

mutual

def toJson : Segment → Json
  | .literal text => .obj [("kind", .str "literal"), ("text", .str text)]
  | .param name => .obj [("kind", .str "param"), ("name", .str name)]
  | .optional dependsOn parts =>
    .obj [("kind", .str "optional"), ("depends_on", .arr (dependsOn.map .str)),
      ("segments", .arr (allToJson parts))]

def allToJson : List Segment → List Json
  | [] => []
  | part :: rest => toJson part :: allToJson rest

end

end Segment

namespace Pattern

structure Compiled where
  pattern : Pattern
  matcher : Matcher
  builder : Builder
  conditions : Mapping Value
  defaults : Mapping String

namespace Compiled

variable [CharacterNames]

def ofPattern (p : Pattern) (conditions defaults : Value) : Except Failure Compiled := do
  let conditionEntries ← Failure.ofMisuse conditions.toMapping
  let texts ← Failure.ofMisuse (Builder.defaultTexts defaults)
  let matcher ← Matcher.ofPattern p (.mapping conditionEntries)
  return ⟨p, matcher, ⟨p, texts⟩, conditionEntries, texts⟩

def ofSource (file : Option String) (source : String) (conditions defaults : Value) :
    Except Failure Compiled := do
  let p ← Failure.ofPattern (Pattern.parse file source)
  ofPattern p conditions defaults

def builderJson (b : Builder) : Except Misuse Json := do
  let defaults ← Json.members (b.defaults.mapValues Json.str)
  return .obj [("defaults", .obj defaults), ("segments", .arr (Segment.allToJson b.pattern.parts))]

def toJson (c : Compiled) : Except Misuse Json := do
  let builder ← builderJson c.builder
  return .obj [("raw", .str c.pattern.source), ("param_order", .arr (c.matcher.order.map .str)),
    ("matcher", .str c.matcher.source), ("builder", builder)]

def toJsonText (c : Compiled) (indent : Option Int) : Except Misuse String := do
  let document ← c.toJson
  return document.text (.ofIndent indent)

end Compiled

end Pattern

end PathRouting
