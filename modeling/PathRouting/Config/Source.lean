import PathRouting.Config.Layer
import PathRouting.Files.Glob
import PathRouting.Journal

/-!
# Sources of settings

Settings are taken from files, from a file of variables, from the environment and from
overrides, in this order. What is loaded is told on the way.
-/
namespace PathRouting.Config

structure Sources where
  paths : List String
  variableStart : String
  /-- The path of a file of variables; an empty one is none. -/
  variableFile : Option String
  environment : List (String × String)
  overrides : Value

def defaultStart : String := "ROUTEFORGE_"

/-- Loading, which may fail; what was told before a failure stays told. -/
abbrev LoadM (m : Type → Type) := ExceptT Failure (StateT (List Event) m)

inductive Format where
  | json
  | yaml
deriving DecidableEq

def Format.ofSuffix? (suffix : String) : Option Format :=
  if suffix == ".json" then some .json
  else if suffix == ".yaml" || suffix == ".yml" then some .yaml
  else none

def fileFault (path reason : String) (cause : Option Fault.Cause) : Failure :=
  .fault { Fault.configFile (.str path) (.str reason) [] with cause := cause }

variable [YamlReader]

def readFormat (format : Format) (path text : String) : Except Failure Document :=
  match format with
  | .json =>
    match Json.read text with
    | .ok document => .ok (.ofValue document.toValue)
    | .error e =>
      match e.cause with
      | .tooManyDigits count => .error (.tooManyDigits count)
      | _ =>
        .error (fileFault path ("invalid JSON: " ++ e.message text.toList)
          (some .json))
  | .yaml =>
    match YamlReader.readYaml text with
    | .ok document => .ok document
    | .error e => .error (fileFault path ("invalid YAML: " ++ e.message) (some (.yaml e.level)))

/-- The layer of a file's document, which is a mapping or counts as false. -/
def layerOfFile (path : String) (d : Document) : Except Failure (Option Layer) :=
  if !d.truthy then .ok none
  else match d.entries? with
    | some _ => .ok (some (.document d))
    | none => .error (fileFault path "top level must be a mapping" none)

variable {m : Type → Type} [Monad m]

def tell (e : Event) : LoadM m Unit := modify (· ++ [e])

def ask {α : Type} (question : m α) : LoadM m α := ExceptT.lift (StateT.lift question)

/-- The text of a file with all line ends written alike. A directory has none. -/
def readText (v : FileView m) (path : String) : LoadM m String := do
  if (← ask (v.kind? path)) == some .directory then
    throw (.directory path)
  let text ← ask (v.content path)
  return String.ofList (Text.universalNewlines text.toList)

def loadFile (v : FileView m) (path : String) : LoadM m (List Layer) := do
  let suffix := Path.suffix path
  match Format.ofSuffix? suffix with
  | none => throw (fileFault path ("unsupported config file type '" ++ suffix ++ "'") none)
  | some format =>
    let path := Path.normalize path
    let text ← readText v path
    let document ← (readFormat format path text : Except Failure Document)
    match ← (layerOfFile path document : Except Failure (Option Layer)) with
    | none => return []
    | some layer =>
      tell (.configLoaded path)
      return [layer]

def loadFiles (v : FileView m) : List String → LoadM m (List Layer)
  | [] => return []
  | path :: rest => do
    let layers ← loadFile v path
    let others ← loadFiles v rest
    return layers ++ others

/-- The layers of the files that fit a pattern, of which there must be one. -/
def loadPattern (v : FileView m) (pattern : String) : LoadM m (List Layer) := do
  match (← ask (Glob.expand v pattern)).mergeSort fun a b => decide (a ≤ b) with
  | [] => throw (fileFault pattern "no config file matches this path" none)
  | paths => loadFiles v paths

def loadPatterns (v : FileView m) : List String → LoadM m (List Layer)
  | [] => return []
  | pattern :: rest => do
    let layers ← loadPattern v pattern
    let others ← loadPatterns v rest
    return layers ++ others

/-- The layers of a file of variables. A file that does not exist brings none. -/
def loadVariables (v : FileView m) (start : String) (path : Option String) :
    LoadM m (List Layer) := do
  match path with
  | none | some "" => return []
  | some path =>
    let path := Path.normalize path
    if (← ask (v.kind? path)).isNone then return []
    let text ← readText v path
    let layers ← (Layer.ofVariables start (variablesOf text) : Except Failure (List Layer))
    tell (.variablesLoaded path)
    return layers

/-- All layers of settings, the first one at the bottom. -/
def gather (v : FileView m) (s : Sources) : LoadM m (List Layer) := do
  let files ← loadPatterns v s.paths
  let stored ← loadVariables v s.variableStart s.variableFile
  let environment ← (Layer.ofVariables s.variableStart s.environment : Except Failure (List Layer))
  let overrides ← (Layer.ofOverrides s.overrides : Except Failure (List Layer))
  return files ++ stored ++ environment ++ overrides

def load (v : FileView m) (s : Sources) : LoadM m (Mapping Value) :=
  return (Layer.stack (← gather v s)).value

def run (v : FileView m) (s : Sources) : m (Except Failure (Mapping Value) × List Event) :=
  ((load v s).run).run []

end PathRouting.Config
