import PathRouting.Yaml.Document
import PathRouting.Yaml.PlainText
import PathRouting.Yaml.Tree

/-!
# Reading YAML text

The nodes of a text become the tree of a document. Mappings that are merged into another one give
way to its own entries. Only the tags of the basic kinds are known; dates are read as texts.
-/
namespace PathRouting.Yaml

def valueError (problem : String) : Error := ⟨.values, problem, none⟩

inductive TagKind where
  | scalar (kind : ScalarKind)
  | sequence
  | mapping
deriving DecidableEq

def tagKinds : List (String × TagKind) := [
  ("null", .scalar .null), ("bool", .scalar .bool), ("int", .scalar .int),
  ("float", .scalar .float), ("str", .scalar .str), ("seq", .sequence), ("map", .mapping)]

def tagKind? (tag : String) : Option TagKind :=
  (Text.dropStart? basicTagStart.toList tag.toList).bind fun name =>
    tagKinds.lookup (String.ofList name)

def unknownTag (tag : String) : Error :=
  valueError ("found unknown tag '" ++ tag ++ "'")

/-- The kind of a scalar: what its tag says, what a plain text looks like, or else a text. -/
def kindOf (tag : Option String) (plain : Bool) (text : String) : Except Error ScalarKind :=
  match tag with
  | none => .ok (if plain then scalarKind text else .str)
  | some "!" => .ok (scalarKind text)
  | some tag =>
    match tagKind? tag with
    | some (.scalar kind) => .ok kind
    | some _ => .error (valueError "expected a collection, but found a scalar")
    | none => .error (unknownTag tag)

def scalarValue (kind : ScalarKind) (text : String) : Except Error Value :=
  match kind with
  | .null => .ok .null
  | .str => .ok (.str text)
  | .bool =>
    let word := String.ofList (text.toList.map Char.toLower)
    if trueWords.contains word then .ok (.bool true)
    else if falseWords.contains word then .ok (.bool false)
    else .error (valueError "expected a truth value")
  | .int =>
    if scalarKind text == .int then .ok (.int (integerValue text))
    else .error (valueError "expected an integer")
  | .float =>
    match scalarKind text with
    | .float | .int => .ok (.float (floatValue text))
    | _ => .error (valueError "expected a number")
  | .merge => .error (unknownTag (basicTagStart ++ "merge"))
  | .value => .error (unknownTag (basicTagStart ++ "value"))

def checkTag (wanted : TagKind) (tag : Option String) : Except Error Unit :=
  match tag with
  | none | some "!" => .ok ()
  | some tag =>
    match tagKind? tag with
    | some kind =>
      if kind = wanted then .ok () else .error (valueError "a tag does not fit its node")
    | none => .error (unknownTag tag)

inductive Entry where
  | own (key : Value) (tree : Tree)
  | merged (entries : List (Value × Tree))

def Entry.mergedEntries : Entry → List (Value × Tree)
  | .own _ _ => []
  | .merged entries => entries

def Entry.ownEntry? : Entry → Option (Value × Tree)
  | .own k t => some (k, t)
  | .merged _ => none

/-- The mapping with the given entries: what is merged comes first and is replaced by the
mapping's own entries. -/
def assemble (entries : List Entry) : Mapping Tree :=
  Mapping.ofEntries (entries.flatMap Entry.mergedEntries ++ entries.filterMap Entry.ownEntry?)

/-- The entries that a tree merges into a mapping. Of several mappings the first one wins. -/
def mergeable (t : Tree) : Except Error (List (Value × Tree)) :=
  match t with
  | .mapping _ es => .ok es
  | .list items => do
    let parts ← items.mapM fun item =>
      match item with
      | .mapping _ es => .ok es
      | _ => .error (valueError "expected a mapping for merging")
    return parts.reverse.flatten
  | _ => .error (valueError "expected a mapping or list of mappings for merging")

def isMerge : Node → Bool
  | .scalar none true text => scalarKind text == .merge
  | _ => false

mutual

def nodeTree : Node → Except Error Tree
  | .scalar tag plain text => do
    let kind ← kindOf tag plain text
    return .plain (← scalarValue kind text)
  | .sequence tag items => do
    checkTag .sequence tag
    return .list (← itemTrees items)
  | .mapping number tag entries => do
    checkTag .mapping tag
    return .mapping number (assemble (← entryTrees entries))

def itemTrees : List Node → Except Error (List Tree)
  | [] => .ok []
  | n :: rest => do
    let t ← nodeTree n
    let others ← itemTrees rest
    return t :: others

def entryTrees : List (Node × Node) → Except Error (List Entry)
  | [] => .ok []
  | (k, n) :: rest => do
    let t ← nodeTree n
    let entry ← if isMerge k then (mergeable t).map Entry.merged
      else (keyValue k).map fun key => Entry.own key t
    let others ← entryTrees rest
    return entry :: others

def keyValue : Node → Except Error Value
  | .scalar none true "=" => .ok (.str "=")
  | .scalar tag plain text => do
    let kind ← kindOf tag plain text
    scalarValue kind text
  | .sequence _ _ => .error (valueError "found unhashable key")
  | .mapping _ _ _ => .error (valueError "found unhashable key")

end

def isAllowed (c : Char) : Bool :=
  let n := c.toNat
  n == 9 || n == 10 || n == 13 || (0x20 ≤ n && n ≤ 0x7E) || n == 0x85 ||
    (0xA0 ≤ n && n ≤ 0xD7FF) || (0xE000 ≤ n && n ≤ 0xFFFD) || 0x10000 ≤ n

/-- Read a text with a single document; a text without any is read as the absent value. -/
def read (text : String) : Except Error Config.Document := do
  let s := text.toList
  if !s.all isAllowed then throw ⟨.characters, "special characters are not allowed", none⟩
  let (tokens, error) := Token.scan s
  match ← Node.ofTokens tokens error with
  | none => return .ofValue .null
  | some node => return (← nodeTree node).document

instance : Config.YamlReader := ⟨read⟩

end PathRouting.Yaml
