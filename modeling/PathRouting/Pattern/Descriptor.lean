import PathRouting.Pattern.Compiled

/-!
# Reading descriptors

What the descriptor of a compiled pattern tells to one who has nothing else: the pattern, the
parameters in order, the expression, and all that is needed to build paths.
-/
namespace PathRouting

def Json.texts? : List Json → Option (List String)
  | [] => some []
  | .str text :: rest => (texts? rest).map (text :: ·)
  | _ => none

def Json.namedTexts? : List (String × Json) → Option (List (String × String))
  | [] => some []
  | (name, .str text) :: rest => (namedTexts? rest).map ((name, text) :: ·)
  | _ => none

namespace Segment

mutual

def ofJson? : Json → Option Segment
  | .obj [("kind", .str "literal"), ("text", .str text)] => some (.literal text)
  | .obj [("kind", .str "param"), ("name", .str name)] => some (.param name)
  | .obj [("kind", .str "optional"), ("depends_on", .arr names), ("segments", .arr parts)] => do
    let names ← Json.texts? names
    let parts ← allOfJson? parts
    return .optional names parts
  | _ => none

def allOfJson? : List Json → Option (List Segment)
  | [] => some []
  | x :: xs => do
    let part ← ofJson? x
    let rest ← allOfJson? xs
    return part :: rest

end

end Segment

namespace Pattern

structure Descriptor where
  source : String
  order : List String
  matcher : String
  defaults : List (String × String)
  parts : List Segment

namespace Descriptor

def toJson (d : Descriptor) : Json :=
  .obj [("raw", .str d.source), ("param_order", .arr (d.order.map .str)),
    ("matcher", .str d.matcher),
    ("builder", .obj [("defaults", .obj (d.defaults.map fun e => (e.1, .str e.2))),
      ("segments", .arr (Segment.allToJson d.parts))])]

def ofJson? : Json → Option Descriptor
  | .obj [("raw", .str source), ("param_order", .arr order), ("matcher", .str matcher),
      ("builder", .obj [("defaults", .obj defaults), ("segments", .arr parts)])] => do
    let order ← Json.texts? order
    let defaults ← Json.namedTexts? defaults
    let parts ← Segment.allOfJson? parts
    return ⟨source, order, matcher, defaults, parts⟩
  | _ => none

def builder (d : Descriptor) : Except Misuse Builder :=
  Builder.ofPattern ⟨d.source, d.parts, none⟩
    (.mapping (d.defaults.map fun e => (.str e.1, .str e.2)))

end Descriptor

end Pattern

end PathRouting
