import PathRouting.Command.Usage
import PathRouting.Value.Mapping

/-!
# The command line

What the words of a command line ask for.
-/
namespace PathRouting.Command

def programName : String := "routeforge"

def programVersion : String := "0.1.0"

/-! ## Options -/

def helpOption : OptionSpec := ⟨["--help"], false⟩

def versionOption : OptionSpec := ⟨["--version"], false⟩

def configOption : OptionSpec := ⟨["--config", "-c"], true⟩

def envFileOption : OptionSpec := ⟨["--env-file"], true⟩

def verboseOption : OptionSpec := ⟨["--verbose", "-v"], false⟩

def quietOption : OptionSpec := ⟨["--quiet", "-q"], false⟩

def jsonOption : OptionSpec := ⟨["--json-output"], false⟩

def paramOption : OptionSpec := ⟨["--param", "-p"], true⟩

def indentOption : OptionSpec := ⟨["--indent"], true⟩

def conditionOption : OptionSpec := ⟨["--condition", "-C"], true⟩

def defaultOption : OptionSpec := ⟨["--default", "-d"], true⟩

/-! ## Commands -/

def programSpec : CommandSpec :=
  ⟨[versionOption, configOption, envFileOption, verboseOption, quietOption, helpOption], [], false⟩

inductive Name where
  | routes
  | match_
  | build
  | bundle
  | inspect
deriving DecidableEq

namespace Name

def all : List Name := [.build, .bundle, .inspect, .match_, .routes]

def word : Name → String
  | .routes => "routes"
  | .match_ => "match"
  | .build => "build"
  | .bundle => "bundle"
  | .inspect => "inspect"

def ofWord? (w : String) : Option Name := all.find? fun n => n.word == w

def spec : Name → CommandSpec
  | .routes => ⟨[helpOption], [], true⟩
  | .match_ => ⟨[jsonOption, helpOption], ["METHOD", "PATH"], true⟩
  | .build => ⟨[paramOption, helpOption], ["NAME"], true⟩
  | .bundle => ⟨[indentOption, helpOption], [], true⟩
  | .inspect => ⟨[conditionOption, defaultOption, helpOption], ["PATTERN"], true⟩

def summary : Name → String
  | .routes => "List registered routes in lookup order."
  | .match_ => "Find the first route matching METHOD and PATH."
  | .build => "Build a path for the route registered as NAME."
  | .bundle => "Dump route descriptors as JSON for another runtime."
  | .inspect => "Show the tree, regex and capture order PATTERN compiles to."

end Name

structure Globals where
  configPaths : List String
  envFile : Option String
  verbose : Bool
  quiet : Bool

inductive Action where
  | routes
  | match_ (method path : String) (json : Bool)
  | build (name : String) (params : List String)
  | bundle (indent : Int)
  | inspect (pattern : String) (conditions defaults : List String)

/-- What a command line asks for. A usage error concerns a command, or the program itself. -/
inductive Line where
  | version
  | help (command : Option Name)
  | wrong (command : Option Name) (error : UsageError)
  | run (globals : Globals) (command : Name) (action : Action)

/-- A reader of command lines, which is kept outside of the project. -/
class LineReader where
  readLine : List String → Line

def readPairs (option : String) : List String → Except UsageError (List (String × String))
  | [] => .ok []
  | word :: rest =>
    match Text.splitFirst? '=' word.toList with
    | none => .error (.notPair option word)
    | some (key, value) =>
      (readPairs option rest).map ((String.ofList key, String.ofList value) :: ·)

/-- Pairs as a mapping: of several values for a key the last one counts. -/
def pairsValue (pairs : List (String × String)) : Value :=
  .mapping (Mapping.ofEntries (pairs.map fun (k, v) => (.str k, .str v)))

end PathRouting.Command
