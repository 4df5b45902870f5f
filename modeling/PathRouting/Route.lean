import PathRouting.Fault.Kinds
import PathRouting.Pattern.Cache
import PathRouting.Query.Codec
import PathRouting.Text.Case

/-!
# Routes

A route binds a pattern to a method and a name. Its pattern is extended by an optional query
string, which carries the parameters that the pattern itself does not name.
-/
namespace PathRouting

def routeMethods : List String := ["GET", "POST", "DELETE", "PUT"]

def queryParam : String := "query_string"

def queryCondition : String := ".*"

def querySuffix : String := "(?<" ++ queryParam ++ ">)"

structure Route where
  method : String
  name : String
  /-- The pattern as it was given, without the query string. -/
  pattern : String
  conditions : Mapping Value
  defaults : Mapping String
  codec : Codec
  compiled : Pattern.Compiled
  /-- Data that is attached to the route and not looked into, but for its controller. -/
  data : Value

namespace Route

structure Definition where
  method : Value
  name : Value
  pattern : Value
  conditions : Value
  defaults : Value

def method? (v : Value) : Option String :=
  match v with
  | .str s =>
    let upper := Text.upper s
    if routeMethods.contains upper then some upper else none
  | _ => none

def nonEmptyText? (v : Value) : Option String :=
  match v with
  | .str s => if s.isEmpty then none else some s
  | _ => none

def optionalMapping? (v : Value) : Option (Mapping Value) :=
  match v with
  | .null => some []
  | .mapping es => some es
  | _ => none

def methodFault (method : Value) : Failure :=
  match Fault.methodInvalid method (.list (routeMethods.map .str)) [] with
  | .ok f => .fault f
  | .error m => .misuse m

def argumentFault (argument reason : String) : Failure :=
  .fault (Fault.routeDefinition (.str argument) (.str reason) [])

/-- A refused pattern as a fault of the route; any other failure stays what it is. -/
def patternFault (name pattern : String) : Failure → Failure
  | .pattern e =>
    let d := e.diagnostic
    .fault { Fault.patternInvalid (.str pattern) (.str d.message)
        [(.str "diagnostic", .str d.format), (.str "route", .str name)] with
      cause := some (.pattern d.kind) }
  | e => e

structure Checked where
  method : String
  name : String
  pattern : String
  conditions : Mapping Value
  defaults : Mapping String

/-- Check a definition. The first part that is wrong counts. -/
def Definition.check (d : Definition) : Except Failure Checked :=
  match method? d.method, nonEmptyText? d.name, nonEmptyText? d.pattern,
    optionalMapping? d.conditions, optionalMapping? d.defaults with
  | none, _, _, _, _ => .error (methodFault d.method)
  | _, none, _, _, _ => .error (argumentFault "name" "must be a non-empty string")
  | _, _, none, _, _ => .error (argumentFault "pattern" "must be a non-empty string")
  | _, _, _, none, _ => .error (argumentFault "conditions" "must be a mapping")
  | _, _, _, _, none => .error (argumentFault "defaults" "must be a mapping")
  | some method, some name, some pattern, some conditions, some defaults =>
    .ok ⟨method, name, pattern, Mapping.insert conditions (.str queryParam) (.str queryCondition),
      Mapping.mapValues Value.text defaults⟩

def Checked.request (c : Checked) : Pattern.Request :=
  ⟨c.pattern ++ querySuffix, .mapping c.conditions, .mapping (c.defaults.mapValues .str)⟩

variable [CharacterNames]

def compileWith (cache : Option Pattern.Cache) (r : Pattern.Request) :
    Except Failure Pattern.Compiled × Option Pattern.Cache :=
  match cache with
  | none => (r.compile, none)
  | some c =>
    let (result, c) := c.compile r
    (result.map Pattern.Shared.compiled, some c)

def ofDefinition (d : Definition) (codec : Codec) (cache : Option Pattern.Cache) :
    Except Failure Route × Option Pattern.Cache :=
  match d.check with
  | .error e => (.error e, cache)
  | .ok c =>
    match compileWith cache c.request with
    | (.error e, cache) => (.error (patternFault c.name c.pattern e), cache)
    | (.ok compiled, cache) =>
      (.ok ⟨c.method, c.name, c.pattern, c.conditions, c.defaults, codec, compiled, .null⟩, cache)

def order (r : Route) : List String := r.compiled.matcher.order

def bind (r : Route) (data : Value) : Route := { r with data := data }

/-- The parameters of a matched path: what the path gives, then defaults, then what the query
string gives. -/
def complete (r : Route) (found : List (String × String)) : Mapping String :=
  let params : Mapping String := found.map fun (name, text) => (.str name, text)
  let params := r.defaults.foldl (fun m (k, v) => Mapping.insertNew m k v) params
  match Mapping.named? params queryParam with
  | none => params
  | some query =>
    let params := Mapping.erase params (.str queryParam)
    if query.isEmpty then params
    else (r.codec.decode query).foldl (fun m (k, v) => Mapping.insertNew m (.str k) v) params

def parse (r : Route) (path method : Value) : Option (Mapping String) :=
  match path, method with
  | .str path, .str method =>
    if Text.upper method = r.method then (r.compiled.matcher.run path).map r.complete else none
  | _, _ => none

def declares (r : Route) (key : Value) : Bool :=
  match key with
  | .str name => r.order.contains name
  | _ => false

/-- The path for parameters. Those that the pattern does not name go into the query string. -/
def build (r : Route) (params : Mapping Value) : String :=
  let (declared, others) := params.partition fun (k, _) => r.declares k
  let query := r.codec.encode others
  let declared :=
    if query.isEmpty then declared else Mapping.insert declared (.str queryParam) (.str query)
  r.compiled.builder.build declared

/-- The path for parameters given as a value, which is a mapping or counts as false. -/
def buildFrom (r : Route) (params : Value) : Except Misuse String :=
  params.entriesOrNone.map r.build

def controller (r : Route) : Value :=
  match r.data with
  | .mapping es => (Mapping.named? es "controller").getD .null
  | .record fs => (fs.lookup "controller").getD .null
  | _ => .null

structure Descriptor where
  name : String
  method : String
  defaults : Mapping String
  order : List String
  matcher : String
  parts : List Segment
  controller : Value

def descriptor (r : Route) : Descriptor :=
  ⟨r.name, r.method, r.defaults, r.order, r.compiled.matcher.source,
    r.compiled.builder.pattern.parts, r.controller⟩

def inspect (r : Route) : String :=
  "Route(" ++ r.method ++ " " ++ Text.quoted r.name ++ " " ++ Text.quoted r.pattern ++ ")"

end Route

end PathRouting
