import PathRouting.Command.Help
import PathRouting.Command.Words
import PathRouting.Config.RouterSetup
import PathRouting.Config.Source
import PathRouting.Output.Screen
import PathRouting.Report
import PathRouting.Yaml.Reader

/-!
# Running commands

A command takes its routes from the configuration. Faults are put out as errors; any other
failure is left to the caller.
-/
namespace PathRouting

namespace Route.Descriptor

def toJson (d : Descriptor) : Except Misuse Json := do
  let defaults ← Json.members (Mapping.mapValues Json.str d.defaults)
  let controller ← Json.ofValue d.controller
  return .obj [("name", .str d.name), ("method", .str d.method), ("defaults", .obj defaults),
    ("param_order", .arr (d.order.map .str)), ("matcher", .str d.matcher),
    ("builder", .arr (Segment.allToJson d.parts)), ("controller", controller)]

def allToJson : List Descriptor → Except Misuse (List Json)
  | [] => .ok []
  | d :: rest => do
    let document ← d.toJson
    let others ← allToJson rest
    return document :: others

end Route.Descriptor

namespace Command

open Output

structure Outcome where
  exit : Nat
  stdout : String
  stderr : String
deriving DecidableEq

namespace Outcome

def ok (stdout : String) : Outcome := ⟨0, stdout, ""⟩

def lines (ls : List String) : Outcome := ok (String.join (ls.map (printed false)))

def failed (message : String) : Outcome := ⟨1, "", printed false (Output.error message)⟩

def misused (name : Name) (e : UsageError) : Outcome := ⟨2, "", usageText (some name) e⟩

def after (log : String) (o : Outcome) : Outcome := { o with stderr := log ++ o.stderr }

end Outcome

/-- The outcome of a failure: a fault is an error of the command. -/
def ofFailure : Failure → Except Failure Outcome
  | .fault f => .ok (.failed (cross ++ " " ++ f.text))
  | e => .error e

def log (shown : Bool) (events : List Event) : String :=
  if shown then String.join (events.map Event.line) else ""

/-- The width of the terminal, from the variable that tells its columns. -/
def terminalWidth (environment : List (String × String)) : Nat :=
  let told := (environment.lookup "COLUMNS").bind fun text => Number.integer? text.toList
  match told with
  | some n => clampWidth (if 0 < n then n.toNat else defaultColumns)
  | none => clampWidth defaultColumns

def routesOutcome (quiet : Bool) (width : Nat) (r : Router) : Outcome :=
  if r.routes.isEmpty then .lines [warning "No routes configured"]
  else
    let title := "Routes (" ++ Value.ofInt r.routes.length ++ ")"
    .lines ((if quiet then [] else [heading title width .cyan]) ++
      table .standard ["Name", "Method", "Pattern"]
        (r.routes.map fun route => [route.name, route.method, route.pattern]))

def matchJson (route : Route) (params : Mapping String) : Except Misuse Json := do
  let members ← Json.members (params.mapValues Json.str)
  return .obj [("route", .str route.name), ("params", .obj members)]

def matchLines (route : Route) (params : Mapping String) : List String :=
  let line := pair .standard
  [line "Route" route.name, line "Method" route.method, line "Pattern" route.pattern] ++
    params.map fun (key, value) => line ("  " ++ key.text) value

def matchOutcome (method path : String) (json : Bool) (r : Router) : Except Failure Outcome :=
  match r.find (.str path) (.str method) with
  | none => .ok (.failed (cross ++ " No route matches " ++ Text.upper method ++ " " ++ path))
  | some (route, params) =>
    if json then do
      let document ← Failure.ofMisuse (matchJson route params)
      return .lines [document.text (.indented 2)]
    else .ok (.lines (matchLines route params))

def buildOutcome (name : String) (params : List String) (r : Router) : Except Failure Outcome :=
  match readPairs "--param" params with
  | .error e => .ok (.misused .build e)
  | .ok pairs =>
    match r.build (.str name) (pairsValue pairs) with
    | .ok path => .ok (.lines [path])
    | .error e => ofFailure e

/-- The descriptors of all routes. No indentation at all means a single line. -/
def bundleOutcome (indent : Int) (r : Router) : Except Failure Outcome := do
  let documents ← Failure.ofMisuse (Route.Descriptor.allToJson r.bundle)
  let layout := Json.Layout.ofIndent (if indent == 0 then none else some indent)
  return .lines [(Json.arr documents).text layout]

variable [CharacterNames] [Config.YamlReader] [LineReader]

def inspectRequest (request : Pattern.Request) : Except Failure Outcome :=
  match request.compile with
  | .error (.pattern e) => .ok (.failed e.diagnostic.format)
  | .error e => .error e
  | .ok compiled => do
    let text ← Failure.ofMisuse (compiled.toJsonText (some 2))
    return .lines [text]

def inspectOutcome (pattern : String) (conditions defaults : List String) :
    Except Failure Outcome :=
  match readPairs "--condition" conditions, readPairs "--default" defaults with
  | .error e, _ | _, .error e => .ok (.misused .inspect e)
  | .ok conditions, .ok defaults =>
    inspectRequest ⟨pattern, pairsValue conditions, pairsValue defaults⟩

def routerOutcome (g : Globals) (width : Nat) : Action → Router → Except Failure Outcome
  | .routes, r => .ok (routesOutcome g.quiet width r)
  | .match_ method path json, r => matchOutcome method path json r
  | .build name params, r => buildOutcome name params r
  | .bundle indent, r => bundleOutcome indent r
  | .inspect pattern conditions defaults, _ => inspectOutcome pattern conditions defaults

def actionEvents (r : Router) : Action → List Event
  | .match_ method path _ => [r.findEvent path method]
  | _ => []

def showsEvents (g : Globals) (c : RouterSetup) : Bool := g.verbose || c.logLevelName == "DEBUG"

def withConfig (g : Globals) (width : Nat) (action : Action) (c : RouterSetup) :
    Except Failure Outcome := do
  let start := Router.empty .standard c.cache
  let registered := log (showsEvents g c) (start.addAllListedEvents 0 c.routes)
  match c.router .standard with
  | .error e => return (← ofFailure e).after registered
  | .ok r =>
    let outcome ← routerOutcome g width action r
    return outcome.after (registered ++ log (showsEvents g c) (actionEvents r action))

def withSettings (g : Globals) (width : Nat) (action : Action)
    (loaded : Except Failure (Mapping Value) × List Event) : Except Failure Outcome := do
  let outcome ← match loaded.1.bind RouterSetup.ofSettings with
    | .error e => ofFailure e
    | .ok c => withConfig g width action c
  return outcome.after (log g.verbose loaded.2)

variable {m : Type → Type} [Monad m]

def sources (g : Globals) (environment : List (String × String)) : Config.Sources :=
  ⟨g.configPaths, Config.defaultStart, g.envFile, environment, .null⟩

def perform (v : FileView m) (environment : List (String × String)) (g : Globals) :
    Action → m (Except Failure Outcome)
  | .inspect pattern conditions defaults => return inspectOutcome pattern conditions defaults
  | action => do
    let loaded ← Config.run v (sources g environment)
    return withSettings g (terminalWidth environment) action loaded

def run (v : FileView m) (environment : List (String × String)) (words : List String) :
    m (Except Failure Outcome) :=
  match LineReader.readLine words with
  | .version => return .ok (.ok (programName ++ ", version " ++ programVersion ++ "\n"))
  | .help command => return .ok (.ok (helpText command))
  | .wrong command e => return .ok ⟨2, "", usageText command e⟩
  | .run globals _ action => perform v environment globals action

end Command

end PathRouting
