import PathRouting.Pattern.Diagnostic
import PathRouting.Value.Mapping
import PathRouting.Value.Misuse
import PathRouting.Yaml.Error

/-!
# Faults

A fault is a structured error: a stable code, a message, the domain that it arose in, how
severe it is, and data about the circumstances.
-/
namespace PathRouting

inductive Severity where
  | info
  | warn
  | error
  | fatal
deriving DecidableEq

def Severity.name : Severity → String
  | .info => "info"
  | .warn => "warn"
  | .error => "error"
  | .fatal => "fatal"

def Severity.ofName? (s : String) : Option Severity :=
  [Severity.info, .warn, .error, .fatal].find? (·.name == s)

structure Domain where
  name : String
  description : String
deriving DecidableEq

namespace Domain

def config : Domain := ⟨"config", "Configuration errors"⟩

def routing : Domain := ⟨"routing", "Route definition and lookup errors"⟩

/-- The severity of a domain's faults and whether they can be tried again, for the domains
that say so. -/
def defaults? (name : String) : Option (Severity × Bool) :=
  if name == config.name then some (.fatal, false)
  else if name == routing.name then some (.error, false)
  else none

def inspect (d : Domain) : String := "FaultDomain(name='" ++ d.name ++ "')"

/-- Domains are the same if their names are. -/
def same (d e : Domain) : Bool := d.name == e.name

def sameAsValue (d : Domain) (v : Value) : Bool := d.name == v.text

end Domain

/-- What is given as the domain of a fault: a domain, or some other value, of which nothing
can be told. -/
inductive Area where
  | domain (domain : Domain)
  | other (value : Value)

/-- The name of the area, which only a domain has. -/
def Area.name : Area → Except Misuse String
  | .domain d => .ok d.name
  | .other v => .error (v.missing "value")

def Area.defaults : Area → Except Misuse (Severity × Bool)
  | .domain d => .ok ((Domain.defaults? d.name).getD (.error, false))
  | .other v =>
    match v.unhashable? with
    | some name => .error (.unhashable name)
    | none => .ok ((match v with
      | .str s => Domain.defaults? s
      | _ => none).getD (.error, false))

namespace Fault

inductive Kind where
  | general
  | config
  | configMissing
  | configInvalid
  | configFile
  | routing
  | methodInvalid
  | routeDefinition
  | patternInvalid
  | duplicateRoute
  | routeNotFound
deriving DecidableEq

namespace Kind

def name : Kind → String
  | .general => "Fault"
  | .config => "ConfigFault"
  | .configMissing => "ConfigMissingFault"
  | .configInvalid => "ConfigInvalidFault"
  | .configFile => "ConfigError"
  | .routing => "RoutingFault"
  | .methodInvalid => "MethodInvalidFault"
  | .routeDefinition => "RouteDefinitionFault"
  | .patternInvalid => "PatternInvalidFault"
  | .duplicateRoute => "DuplicateRouteFault"
  | .routeNotFound => "RouteNotFoundFault"

def all : List Kind :=
  [.general, .config, .configMissing, .configInvalid, .configFile, .routing, .methodInvalid,
    .routeDefinition, .patternInvalid, .duplicateRoute, .routeNotFound]

def ofName? (s : String) : Option Kind := all.find? (·.name == s)

/-- A kind and the more general ones that it belongs to, up to the most general one. -/
def lineage : Kind → List Kind
  | .general => [.general]
  | .config => [.config, .general]
  | .configMissing => [.configMissing, .config, .general]
  | .configInvalid => [.configInvalid, .config, .general]
  | .configFile => [.configFile, .configInvalid, .config, .general]
  | .routing => [.routing, .general]
  | .methodInvalid => [.methodInvalid, .routing, .general]
  | .routeDefinition => [.routeDefinition, .routing, .general]
  | .patternInvalid => [.patternInvalid, .routing, .general]
  | .duplicateRoute => [.duplicateRoute, .routing, .general]
  | .routeNotFound => [.routeNotFound, .routing, .general]

end Kind

inductive Cause where
  | pattern (kind : Diagnostic.Kind)
  | json
  | yaml (level : Yaml.Level)
deriving DecidableEq

end Fault

structure Fault where
  kind : Fault.Kind
  /-- The name of a refinement of the kind. -/
  refinement : Option String
  code : Value
  message : Value
  area : Area
  severity : Severity
  retryable : Bool
  isPublic : Bool
  /-- Data about the circumstances. Entries whose names start with an underscore are private. -/
  metadata : Value
  cause : Option Fault.Cause

namespace Fault

def name (f : Fault) : String := f.refinement.getD f.kind.name

def lineage (f : Fault) : List String := f.refinement.toList ++ f.kind.lineage.map Kind.name

def text (f : Fault) : String := "[" ++ f.code.text ++ "] " ++ f.message.text

def inspect (f : Fault) : Except Misuse String := do
  let area ← f.area.name
  return "Fault(code=" ++ f.code.quoted ++ ", domain=" ++ area ++ ", severity=" ++
    f.severity.name ++ ", public=" ++ (Value.bool f.isPublic).quoted ++ ")"

def isShown (key : Value) : Except Misuse Bool :=
  match key with
  | .str s => .ok (s.toList.head? != some '_')
  | v => .error (v.missing "startswith")

def shownEntries : List (Value × Value) → Except Misuse (List (Value × Value))
  | [] => .ok []
  | (k, v) :: rest => do
    let shown ← isShown k
    let others ← shownEntries rest
    return if shown then (k, v) :: others else others

structure Report where
  code : Value
  message : Value
  domain : String
  severity : Severity
  retryable : Bool
  isPublic : Bool
  metadata : List (Value × Value)

def report (f : Fault) : Except Misuse Report := do
  let area ← f.area.name
  let entries ← f.metadata.items
  let shown ← shownEntries entries
  return ⟨f.code, f.message, area, f.severity, f.retryable, f.isPublic, shown⟩

end Fault

end PathRouting
