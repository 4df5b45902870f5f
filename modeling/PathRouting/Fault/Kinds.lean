import PathRouting.Fault.Basic

/-!
# Making faults

Each kind fills in its code, its message and its first entries of metadata; further metadata
may add entries and replace those.
-/
namespace PathRouting.Fault

/-- What the maker of a general fault says about it. What is left out is taken from the
refinement's own settings or from the domain. -/
structure Draft where
  code : Option Value
  message : Option Value
  area : Option Area
  severity : Option Severity
  retryable : Option Bool
  isPublic : Bool
  metadata : Option Value

structure Refinement where
  name : String
  code : Option Value
  message : Option Value
  area : Option Area

/-- A value that is there: absence itself counts as nothing given. -/
def given (v : Option Value) : Option Value :=
  match v with
  | some .null => none
  | v => v

/-- Metadata as given: what counts as false is no metadata. -/
def metadataOf (v : Option Value) : Value :=
  match v with
  | some v => if v.truthy then v else .mapping []
  | none => .mapping []

def ofDraft (kind : Kind) (refinement : Option Refinement) (d : Draft) : Except Misuse Fault :=
  let code := (given d.code).or (refinement.bind fun r => given r.code)
  let message := (given d.message).or (refinement.bind fun r => given r.message)
  let area := d.area.or (refinement.bind Refinement.area)
  let name := refinement.map Refinement.name
  match code, message, area with
  | some code, some message, some area => do
    let (severity, retryable) ← area.defaults
    return {
      kind := kind
      refinement := name
      code := code
      message := message
      area := area
      severity := d.severity.getD severity
      retryable := d.retryable.getD retryable
      isPublic := d.isPublic
      metadata := metadataOf d.metadata
      cause := none }
  | _, _, _ => .error (.incompleteFault (name.getD kind.name))

/-- A fault of a kind with all its particulars. Entries added to the metadata win. -/
def make (kind : Kind) (area : Domain) (severity : Severity) (code message : String)
    (entries : List (String × Value)) (added : List (Value × Value)) : Fault where
  kind := kind
  refinement := none
  code := .str code
  message := .str message
  area := .domain area
  severity := severity
  retryable := false
  isPublic := false
  metadata := .mapping (Mapping.ofEntries (entries.map (fun (k, v) => (.str k, v)) ++ added))
  cause := none

def configMissing (key : Value) (added : List (Value × Value)) : Fault :=
  make .configMissing .config .fatal "CONFIG_MISSING"
    ("Required configuration key '" ++ key.text ++ "' is missing") [("key", key)] added

def configInvalid (key reason : Value) (added : List (Value × Value)) : Fault :=
  make .configInvalid .config .fatal "CONFIG_INVALID"
    ("Configuration key '" ++ key.text ++ "' is invalid: " ++ reason.text)
    [("key", key), ("reason", reason)] added

def configFile (key reason : Value) (added : List (Value × Value)) : Fault :=
  { configInvalid key reason added with kind := .configFile }

def joinNames (position : Nat) : List Value → Except Misuse (List String)
  | [] => .ok []
  | .str s :: rest => do
    let names ← joinNames (position + 1) rest
    return s :: names
  | v :: _ => .error (.notText position v.qualifiedTypeName)

def methodInvalid (method allowed : Value) (added : List (Value × Value)) : Except Misuse Fault :=
  match allowed.elements? with
  | none => .error .notJoinable
  | some values => do
    let names ← joinNames 0 values
    return make .methodInvalid .routing .fatal "METHOD_INVALID"
      ("Invalid http method " ++ method.quoted ++ ", expected one of: " ++ ", ".intercalate names)
      [("method", method), ("allowed", allowed)] added

def routeDefinition (argument reason : Value) (added : List (Value × Value)) : Fault :=
  make .routeDefinition .routing .fatal "ROUTE_DEFINITION_INVALID"
    ("Invalid route argument '" ++ argument.text ++ "': " ++ reason.text)
    [("argument", argument), ("reason", reason)] added

def patternInvalid (pattern reason : Value) (added : List (Value × Value)) : Fault :=
  make .patternInvalid .routing .fatal "PATTERN_INVALID"
    ("Invalid route pattern '" ++ pattern.text ++ "': " ++ reason.text)
    [("pattern", pattern), ("reason", reason)] added

def duplicateRoute (name : Value) (added : List (Value × Value)) : Fault :=
  make .duplicateRoute .routing .fatal "ROUTE_DUPLICATE"
    ("Route '" ++ name.text ++ "' is already registered") [("name", name)] added

def routeNotFound (name : Value) (added : List (Value × Value)) : Fault :=
  make .routeNotFound .routing .error "ROUTE_NOT_FOUND" ("Route not found: " ++ name.text)
    [("name", name)] added

end PathRouting.Fault
