import PathRouting.Yaml.Scalar
import PathRouting.Yaml.Token

/-!
# The tokens of a text

Blocks are opened and closed by indentation. A key is only known as one when the colon behind
it is seen, so it is remembered where a key may have begun, and the tokens for it are put there
afterwards.
-/
namespace PathRouting.Yaml

/-- Where a key may have begun: before which token, and whether it has to be one. -/
structure PossibleKey where
  position : Nat
  required : Bool
  index : Nat
  place : Place

structure Lexer where
  cursor : Cursor
  flowLevel : Int
  /-- The indentation of the innermost block, below zero outside all blocks. -/
  indent : Int
  indents : List Int
  tokens : List Token
  keyAllowed : Bool
  keys : List (Int × PossibleKey)

namespace Lexer

def start (text : List Char) : Lexer := ⟨.start text, 0, -1, [], [], true, []⟩

def inFlow (s : Lexer) : Bool := s.flowLevel != 0

def emitAt (s : Lexer) (kind : TokenKind) (place : Place) : Lexer :=
  { s with tokens := ⟨kind, place⟩ :: s.tokens }

def emit (s : Lexer) (kind : TokenKind) : Lexer := s.emitAt kind s.cursor.place

def insertAt (s : Lexer) (position : Nat) (kind : TokenKind) (place : Place) : Lexer :=
  let later := s.tokens.length - position
  { s with tokens := s.tokens.take later ++ ⟨kind, place⟩ :: s.tokens.drop later }

def moveTo (s : Lexer) (c : Cursor) : Lexer := { s with cursor := c }

def allowKey (s : Lexer) (allowed : Bool) : Lexer := { s with keyAllowed := allowed }

def missingColon (k : PossibleKey) : Error :=
  ⟨.tokens, "could not find expected ':'", some k.place⟩

/-- The farthest distance of a colon from the beginning of its key. -/
def keyLength : Nat := 1024

def dropStaleKeys (s : Lexer) : Except Error Lexer :=
  let stale (k : PossibleKey) : Bool :=
    k.place.line != s.cursor.line || decide (keyLength < s.cursor.index - k.index)
  match s.keys.find? fun (_, k) => stale k && k.required with
  | some (_, k) => .error (missingColon k)
  | none => .ok { s with keys := s.keys.filter fun (_, k) => !stale k }

def possibleKey? (s : Lexer) : Option PossibleKey := s.keys.lookup s.flowLevel

def dropKey (s : Lexer) : Except Error Lexer :=
  match s.possibleKey? with
  | none => .ok s
  | some k =>
    if k.required then .error (missingColon k)
    else .ok { s with keys := s.keys.filter fun (level, _) => level != s.flowLevel }

def saveKey (s : Lexer) : Except Error Lexer :=
  if s.keyAllowed then do
    let required := !s.inFlow && decide (s.indent = (s.cursor.column : Int))
    let s ← s.dropKey
    let k : PossibleKey := ⟨s.tokens.length, required, s.cursor.index, s.cursor.place⟩
    return { s with keys := (s.flowLevel, k) :: s.keys }
  else .ok s

def closeBlocks (column : Int) : List Int → Lexer → Lexer
  | [], s => s
  | outer :: rest, s =>
    if column < s.indent then
      closeBlocks column rest ({ s with indent := outer, indents := rest }.emit .blockEnd)
    else s

def unwind (s : Lexer) (column : Int) : Lexer :=
  if s.inFlow then s else closeBlocks column s.indents s

def openBlock? (s : Lexer) (column : Nat) : Option Lexer :=
  if s.indent < (column : Int) then
    some { s with indent := column, indents := s.indent :: s.indents }
  else none

def skipToToken : Nat → Lexer → Lexer
  | 0, s => s
  | fuel + 1, s =>
    let c := (s.cursor.span (· == ' ')).2.skipComment
    if isBreak c.peek then
      let s := s.moveTo c.takeBreak.2
      skipToToken fuel (if s.inFlow then s else s.allowKey true)
    else s.moveTo c

def readStreamEnd (s : Lexer) : Except Error Lexer := do
  let s ← (s.unwind (-1)).dropKey
  return { s with keyAllowed := false, keys := [] }.emit .streamEnd

def readDocumentMark (s : Lexer) (kind : TokenKind) : Except Error Lexer := do
  let s ← (s.unwind (-1)).dropKey
  return ((s.allowKey false).emit kind).moveTo (s.cursor.advance 3)

def readFlowStart (s : Lexer) (kind : TokenKind) : Except Error Lexer := do
  let s ← s.saveKey
  return { (s.emit kind).moveTo s.cursor.next with
    flowLevel := s.flowLevel + 1, keyAllowed := true }

def readFlowEnd (s : Lexer) (kind : TokenKind) : Except Error Lexer := do
  let s ← s.dropKey
  return { (s.emit kind).moveTo s.cursor.next with
    flowLevel := s.flowLevel - 1, keyAllowed := false }

def readFlowEntry (s : Lexer) : Except Error Lexer := do
  let s ← (s.allowKey true).dropKey
  return (s.emit .flowEntry).moveTo s.cursor.next

/-- Open a block of a kind here if that is due. Outside flow collections this is refused where
no key may begin. -/
def startBlock (s : Lexer) (kind : TokenKind) (problem : String) : Except Error Lexer :=
  if s.inFlow then .ok s
  else if !s.keyAllowed then .error (s.cursor.error problem)
  else match s.openBlock? s.cursor.column with
    | some s => .ok (s.emit kind)
    | none => .ok s

def readBlockEntry (s : Lexer) : Except Error Lexer := do
  let s ← s.startBlock .blockSequenceStart "sequence entries are not allowed here"
  let s ← (s.allowKey true).dropKey
  return (s.emit .blockEntry).moveTo s.cursor.next

def readKey (s : Lexer) : Except Error Lexer := do
  let s ← s.startBlock .blockMappingStart "mapping keys are not allowed here"
  let s ← (s.allowKey !s.inFlow).dropKey
  return (s.emit .key).moveTo s.cursor.next

/-- The colon of a value, which makes what stands before it a key. -/
def readValue (s : Lexer) : Except Error Lexer := do
  match s.possibleKey? with
  | some k =>
    let s := { s with keys := s.keys.filter fun (level, _) => level != s.flowLevel }
    let s := s.insertAt k.position .key k.place
    let s := if s.inFlow then s
      else match s.openBlock? k.place.column with
        | some s => s.insertAt k.position .blockMappingStart k.place
        | none => s
    return ((s.allowKey false).emit .value).moveTo s.cursor.next
  | none =>
    let s ← s.startBlock .blockMappingStart "mapping values are not allowed here"
    let s ← (s.allowKey !s.inFlow).dropKey
    return (s.emit .value).moveTo s.cursor.next

def readName (s : Lexer) (kind : String → TokenKind) : Except Error Lexer := do
  let s ← s.saveKey
  let (name, c) := s.cursor.next.span isNameChar
  if name.isEmpty then .error (c.error "expected alphabetic or numeric character")
  else if isSeparator c.peek || ['?', ':', ',', ']', '\x7d', '%', '@', '`'].contains c.peek then
    return ((s.allowKey false).emit (kind (String.ofList name))).moveTo c
  else .error (c.error "expected alphabetic or numeric character")

def readTag (s : Lexer) : Except Error Lexer := do
  let s ← s.saveKey
  let (tag, c) ← writtenTag s.cursor
  return ((s.allowKey false).emit (.tag tag)).moveTo c

def readDirective (s : Lexer) : Except Error Lexer := do
  let s ← (s.unwind (-1)).dropKey
  let (d, c) ← directive s.cursor
  return ((s.allowKey false).emit (.directive d)).moveTo c

def readBlockText (s : Lexer) (folded : Bool) : Except Error Lexer := do
  let s ← (s.allowKey true).dropKey
  let (text, c) ← blockText folded s.indent s.cursor.next
  return (s.emit (.scalar false (String.ofList text))).moveTo c

def readQuoted (s : Lexer) (double : Bool) : Except Error Lexer := do
  let s ← s.saveKey
  let (text, c) ← quotedFrom double (s.cursor.rest.length + 1) s.cursor.next
  return ((s.allowKey false).emit (.scalar false (String.ofList text))).moveTo c

def readPlain (s : Lexer) : Except Error Lexer := do
  let s ← s.saveKey
  let (text, ended, c) :=
    plainFrom s.inFlow (s.indent + 1) (s.cursor.rest.length + 1) [] false s.cursor
  return ((s.allowKey ended).emit (.scalar true (String.ofList text))).moveTo c

def startsPlain (s : Lexer) : Bool :=
  let x := s.cursor.peek
  let following := s.cursor.peekAt 1
  (!isSeparator x && !"-?:,[]\x7b\x7d#&*!|>'\"%@`".toList.contains x) ||
    (!isSeparator following && (x == '-' || (!s.inFlow && (x == '?' || x == ':'))))

/-- The next token and those that come before it. -/
def step (s : Lexer) : Except Error Lexer := do
  let s ← (skipToToken (s.cursor.rest.length + 1) s).dropStaleKeys
  let s := s.unwind s.cursor.column
  let c := s.cursor
  let x := c.peek
  let apart := isSeparator (c.peekAt 1)
  if x == endMark then s.readStreamEnd
  else if c.column == 0 && x == '%' then s.readDirective
  else if c.column == 0 && c.startsWithMark '-' then s.readDocumentMark .documentStart
  else if c.column == 0 && c.startsWithMark '.' then s.readDocumentMark .documentEnd
  else if x == '[' then s.readFlowStart .flowSequenceStart
  else if x == '\x7b' then s.readFlowStart .flowMappingStart
  else if x == ']' then s.readFlowEnd .flowSequenceEnd
  else if x == '\x7d' then s.readFlowEnd .flowMappingEnd
  else if x == ',' then s.readFlowEntry
  else if x == '-' && apart then s.readBlockEntry
  else if x == '?' && (s.inFlow || apart) then s.readKey
  else if x == ':' && (s.inFlow || apart) then s.readValue
  else if x == '*' then s.readName .alias
  else if x == '&' then s.readName .anchor
  else if x == '!' then s.readTag
  else if x == '|' && !s.inFlow then s.readBlockText false
  else if x == '>' && !s.inFlow then s.readBlockText true
  else if x == '\'' then s.readQuoted false
  else if x == '"' then s.readQuoted true
  else if s.startsPlain then s.readPlain
  else .error (c.error "found character that cannot start any token")

def isDone (s : Lexer) : Bool :=
  match s.tokens with
  | ⟨.streamEnd, _⟩ :: _ => true
  | _ => false

/-- How many tokens are certain: those before the first possible key. -/
def certain (s : Lexer) : Nat :=
  s.keys.foldl (fun n (_, k) => min n k.position) s.tokens.length

/-- Read on. The result is all tokens, or those that were certain before an error and the error.
The first argument bounds the number of steps, the second is how many tokens were certain before
the last one. -/
def run : Nat → Nat → Lexer → List Token × Option Error
  | 0, _, s => (s.tokens.reverse, none)
  | fuel + 1, before, s =>
    if s.isDone then (s.tokens.reverse, none)
    else match s.dropStaleKeys with
      | .error e => (s.tokens.reverse.take before, some e)
      | .ok s =>
        match s.step with
        | .error e => (s.tokens.reverse.take s.certain, some e)
        | .ok next => run fuel s.certain next

end Lexer

/-- The tokens of a text. If the text could not be read to its end, they are those that were
certain before the error, which comes with them. -/
def Token.scan (text : List Char) : List Token × Option Error :=
  let body := if (text.headD endMark).toNat == 0xFEFF then text.drop 1 else text
  (Lexer.start body).run (text.length + 2) 0

end PathRouting.Yaml
