import PathRouting.Digest.Sha256
import PathRouting.Json.OfValue
import PathRouting.Pattern.Compiled
import PathRouting.Value.Order

/-!
# Requests for compiled patterns

A request is a pattern text with conditions and defaults. Requests are told apart by a
canonical text, in which mappings and sets are sorted and values appear as their texts.
-/
namespace PathRouting.Pattern

structure Request where
  source : String
  conditions : Value
  defaults : Value

namespace Request

def canonicalValue : Value → Json
  | .set xs | .frozenSet xs =>
    .obj [("set", .arr (((xs.map Value.text).mergeSort fun a b => decide (a ≤ b)).map .str))]
  | .list xs | .tuple xs => .arr (xs.map fun x => .str x.text)
  | v => .str v.text

/-- The canonical form of conditions or defaults: sorted by key. -/
def canonicalMapping (v : Value) : Except Misuse Json := do
  let entries ← v.entriesOrNone
  let sorted ← Value.sortEntries entries
  let members ← Json.members (Mapping.mapValues canonicalValue sorted)
  return .obj members

def canonical (r : Request) : Except Misuse Json := do
  let conditionEntries ← r.conditions.entriesOrNone
  let defaultEntries ← r.defaults.entriesOrNone
  let conditions ← canonicalMapping (.mapping conditionEntries)
  let defaults ← canonicalMapping (.mapping defaultEntries)
  return .obj [("conditions", conditions), ("defaults", defaults), ("pattern", .str r.source)]

def canonicalText (r : Request) : Except Misuse String :=
  r.canonical.map (Json.text .oneLine)

def fingerprintLength : Nat := 16

/-- The fingerprint of a canonical text: the start of its digest. -/
def fingerprintOf (text : String) : String :=
  String.ofList ((Digest.sha256Hex text.toUTF8.toList).take fingerprintLength)

def fingerprint (r : Request) : Except Misuse String := r.canonicalText.map fingerprintOf

def compile [CharacterNames] (r : Request) : Except Failure Compiled :=
  Compiled.ofSource none r.source r.conditions r.defaults

end Request

end PathRouting.Pattern
