import PathRouting.Yaml.Lexer
import PathRouting.Yaml.Node

/-!
# Documents

The tokens of a text form the nodes of its only document. An alias is replaced by the node of
its anchor.
-/
namespace PathRouting.Yaml

structure ReadState where
  tokens : List Token
  anchors : List (String × Node)
  mappings : Nat
  handles : List (String × String)
  /-- What to report behind the last token. -/
  ending : Error

abbrev ReadM := StateT ReadState (Except Error)

namespace Document

def peek : ReadM Token := do
  match (← get).tokens with
  | t :: _ => return t
  | [] => throw (← get).ending

def peekKind : ReadM TokenKind := return (← peek).kind

def skip : ReadM Unit := modify fun s => { s with tokens := s.tokens.drop 1 }

def nextIs (kinds : List TokenKind) : ReadM Bool := return kinds.contains (← peekKind)

def accept (kind : TokenKind) : ReadM Bool := do
  if (← peekKind) == kind then
    skip
    return true
  else return false

def unexpected {α : Type} (wanted : String) : ReadM α := do
  let t ← peek
  throw ⟨.nodes, "expected " ++ wanted ++ ", but found " ++ t.kind.name, some t.place⟩

structure Properties where
  anchor : Option String
  tag : Option String

def nextTag? : ReadM (Option (WrittenTag × Place)) := do
  let t ← peek
  match t.kind with
  | .tag tag => do skip; return some (tag, t.place)
  | _ => return none

def nextAnchor? : ReadM (Option String) := do
  match ← peekKind with
  | .anchor name => do skip; return some name
  | _ => return none

def fullTag : WrittenTag × Place → ReadM String
  | (tag, place) => do
    match tag.full? (← get).handles with
    | some full => return full
    | none => throw ⟨.nodes, "found undefined tag handle", some place⟩

def properties : ReadM Properties := do
  let early ← nextAnchor?
  let tag ← nextTag?
  let late ← if early.isNone && tag.isSome then nextAnchor? else pure none
  return ⟨early.or late, ← tag.mapM fullTag⟩

def mappingNode (entries : List (Node × Node)) : ReadM Node := do
  let number := (← get).mappings
  modify fun s => { s with mappings := number + 1 }
  return .mapping number none entries

def remember (p : Properties) (node : Node) : ReadM Node := do
  let node := node.withTag p.tag
  match p.anchor with
  | none => return node
  | some name =>
    modify fun s => { s with anchors := (name, node) :: s.anchors }
    return node

def checkAnchor (p : Properties) : ReadM Unit := do
  match p.anchor with
  | none => return
  | some name =>
    if ((← get).anchors.lookup name).isSome then
      throw ⟨.references, "found duplicate anchor '" ++ name ++ "'", none⟩

def resolveAlias (name : String) (place : Place) : ReadM Node := do
  match (← get).anchors.lookup name with
  | some node => return node
  | none => throw ⟨.references, "found undefined alias '" ++ name ++ "'", some place⟩

/-- Where a node stands: in a block, in a block where dashes need no indentation, or in a flow
collection. -/
inductive Position where
  | block
  | blockOrDashes
  | flow
deriving DecidableEq

mutual

/-- A node. The first argument of this and the following functions bounds their recursion. -/
def node : Nat → Position → ReadM Node
  | 0, _ => unexpected "the node content"
  | fuel + 1, position => do
    let t ← peek
    match t.kind with
    | .alias name => do
      skip
      resolveAlias name t.place
    | _ => do
      let p ← properties
      checkAnchor p
      let found ← content fuel position
      match found with
      | some n => remember p n
      | none =>
        if p.anchor.isSome || p.tag.isSome then remember p Node.empty
        else unexpected "the node content"

def content : Nat → Position → ReadM (Option Node)
  | 0, _ => return none
  | fuel + 1, position => do
    let inBlock := position != .flow
    match ← peekKind with
    | .blockEntry =>
      if position == .blockOrDashes then return some (.sequence none (← dashes fuel))
      else return none
    | .scalar plain text => do
      skip
      return some (.scalar none plain text)
    | .flowSequenceStart => do
      skip
      return some (.sequence none (← flowItems fuel true))
    | .flowMappingStart => do
      skip
      return some (← mappingNode (← flowEntries fuel true))
    | .blockSequenceStart =>
      if inBlock then do
        skip
        return some (.sequence none (← blockItems fuel))
      else return none
    | .blockMappingStart =>
      if inBlock then do
        skip
        return some (← mappingNode (← blockEntries fuel))
      else return none
    | _ => return none

def blockItems : Nat → ReadM (List Node)
  | 0 => unexpected "<block end>"
  | fuel + 1 => do
    if ← accept .blockEntry then
      let x ← if ← nextIs [.blockEntry, .blockEnd] then pure Node.empty else node fuel .block
      return x :: (← blockItems fuel)
    else if ← accept .blockEnd then return []
    else unexpected "<block end>"

/-- The items of a sequence whose dashes stand at the indentation of its key. -/
def dashes : Nat → ReadM (List Node)
  | 0 => return []
  | fuel + 1 => do
    if ← accept .blockEntry then
      let x ← if ← nextIs [.blockEntry, .key, .value, .blockEnd] then pure Node.empty
        else node fuel .block
      return x :: (← dashes fuel)
    else return []

def blockEntries : Nat → ReadM (List (Node × Node))
  | 0 => unexpected "<block end>"
  | fuel + 1 => do
    if ← accept .key then
      let k ← if ← nextIs [.key, .value, .blockEnd] then pure Node.empty
        else node fuel .blockOrDashes
      let v ← if ← accept .value then
          if ← nextIs [.key, .value, .blockEnd] then pure Node.empty else node fuel .blockOrDashes
        else pure Node.empty
      return (k, v) :: (← blockEntries fuel)
    else if ← accept .blockEnd then return []
    else unexpected "<block end>"

def flowItems : Nat → Bool → ReadM (List Node)
  | 0, _ => unexpected "',' or ']'"
  | fuel + 1, first => do
    if ← accept .flowSequenceEnd then return []
    else
      if !first then
        if !(← accept .flowEntry) then unexpected "',' or ']'"
      if ← accept .flowSequenceEnd then return []
      else
        let x ← if ← accept .key then
            let k ← if ← nextIs [.value, .flowEntry, .flowSequenceEnd] then pure Node.empty
              else node fuel .flow
            let v ← if ← accept .value then
                if ← nextIs [.flowEntry, .flowSequenceEnd] then pure Node.empty
                else node fuel .flow
              else pure Node.empty
            mappingNode [(k, v)]
          else node fuel .flow
        return x :: (← flowItems fuel false)

def flowEntries : Nat → Bool → ReadM (List (Node × Node))
  | 0, _ => unexpected "',' or '\x7d'"
  | fuel + 1, first => do
    if ← accept .flowMappingEnd then return []
    else
      if !first then
        if !(← accept .flowEntry) then unexpected "',' or '\x7d'"
      if ← accept .flowMappingEnd then return []
      else
        let e ← if ← accept .key then
            let k ← if ← nextIs [.value, .flowEntry, .flowMappingEnd] then pure Node.empty
              else node fuel .flow
            let v ← if ← accept .value then
                if ← nextIs [.flowEntry, .flowMappingEnd] then pure Node.empty
                else node fuel .flow
              else pure Node.empty
            pure (k, v)
          else
            let k ← node fuel .flow
            pure (k, Node.empty)
        return e :: (← flowEntries fuel false)

end

def skipDocumentEnds : Nat → ReadM Unit
  | 0 => return
  | fuel + 1 => do
    if ← accept .documentEnd then skipDocumentEnds fuel

def atDirective : ReadM Bool := do
  match ← peekKind with
  | .directive _ => return true
  | _ => return false

/-- Take the directives in front of a document. The handles that they define are given. There is
at most one version, and it is one of those that are known. -/
def directives : Nat → Bool → List (String × String) → ReadM (List (String × String))
  | 0, _, handles => return handles
  | fuel + 1, versioned, handles => do
    let t ← peek
    match t.kind with
    | .directive d =>
      skip
      match d with
      | .version major _ =>
        if versioned then throw ⟨.nodes, "found duplicate YAML directive", some t.place⟩
        else if major != 1 then throw ⟨.nodes, "found incompatible YAML document", some t.place⟩
        else directives fuel true handles
      | .handle name meaning =>
        if (handles.lookup name).isSome then
          throw ⟨.nodes, "duplicate tag handle '" ++ name ++ "'", some t.place⟩
        else directives fuel versioned ((name, meaning) :: handles)
      | .other _ => directives fuel versioned handles
    | _ => return handles

def openDocument (fuel : Nat) : ReadM Unit := do
  let handles ← directives fuel false []
  modify fun s => { s with handles := handles ++ basicHandles }
  if !(← accept .documentStart) then unexpected "'<document start>'"

def single (fuel : Nat) : ReadM (Option Node) := do
  if ← nextIs [.streamEnd] then return none
  else
    let n ← if (← nextIs [.documentStart]) || (← atDirective) then do
        openDocument fuel
        if (← nextIs [.documentStart, .documentEnd, .streamEnd]) || (← atDirective) then
          pure Node.empty
        else node fuel .block
      else node fuel .block
    skipDocumentEnds fuel
    if ← nextIs [.streamEnd] then return some n
    else
      let t ← peek
      openDocument fuel
      throw ⟨.references, "expected a single document in the stream", some t.place⟩

end Document

/-- The node of the only document that tokens form, and nothing if there is none. The error
stands behind the last token. -/
def Node.ofTokens (tokens : List Token) (error : Option Error) : Except Error (Option Node) :=
  let ending := error.getD ⟨.nodes, "found unexpected end of stream", none⟩
  ((Document.single (2 * tokens.length + 8)).run ⟨tokens, [], 0, basicHandles, ending⟩).map Prod.fst

end PathRouting.Yaml
