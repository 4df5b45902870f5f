import PathRouting.Text.Digit
import PathRouting.Text.Utf8
import PathRouting.Yaml.Cursor

/-!
# Tags and directives

A tag says of which kind a node is. It is written in full between angle brackets, or as a
handle and an ending, where directives say what the handle stands for.
-/
namespace PathRouting.Yaml

/-- A tag as it is written. Without a handle the ending is the whole tag. -/
structure WrittenTag where
  handle : Option String
  ending : String
deriving DecidableEq

inductive Directive where
  | version (major minor : Nat)
  | handle (name meaning : String)
  | other (name : String)
deriving DecidableEq

def basicTagStart : String := "tag:yaml.org,2002:"

def basicHandles : List (String × String) := [("!", "!"), ("!!", basicTagStart)]

def WrittenTag.full? (handles : List (String × String)) (t : WrittenTag) : Option String :=
  match t.handle with
  | none => some t.ending
  | some handle => (handles.lookup handle).map (· ++ t.ending)

def isNameChar (c : Char) : Bool :=
  ('0' ≤ c && c ≤ '9') || ('A' ≤ c && c ≤ 'Z') || ('a' ≤ c && c ≤ 'z') || c == '-' || c == '_'

/-- Whether a character may stand in a tag, or else begins an escape in it. -/
def isTagChar (c : Char) : Bool := isNameChar c || ";/?:@&=+$,.!~*'()[]%".toList.contains c

def escapedBytes : Nat → Cursor → Except Error (List Nat × Cursor)
  | 0, c => .ok ([], c)
  | fuel + 1, c =>
    if c.peek == '%' then
      match Text.hexDigit? (c.peekAt 1), Text.hexDigit? (c.peekAt 2) with
      | some high, some low => do
        let (more, c) ← escapedBytes fuel (c.advance 3)
        return ((16 * high + low) :: more, c)
      | _, _ => .error (c.error "expected two hexadecimal digits behind a percent sign")
    else .ok ([], c)

/-- The characters that escapes stand for. Their bytes must be the written form of text. -/
def escapedText (c : Cursor) : Except Error (List Char × Cursor) := do
  let (bytes, rest) ← escapedBytes c.rest.length c
  let text := Text.readUnits .idle (bytes.map .byte)
  if text.flatMap Text.utf8Bytes == bytes then return (text, rest)
  else throw (c.error "escapes that form no text")

def tagTextFrom : Nat → Cursor → Except Error (List Char × Cursor)
  | 0, c => .ok ([], c)
  | fuel + 1, c =>
    if c.peek == '%' then do
      let (text, c) ← escapedText c
      let (more, c) ← tagTextFrom fuel c
      return (text ++ more, c)
    else if isTagChar c.peek then do
      let (more, rest) ← tagTextFrom fuel c.next
      return (c.peek :: more, rest)
    else .ok ([], c)

def tagText (c : Cursor) : Except Error (String × Cursor) := do
  if !isTagChar c.peek then throw (c.error "expected a tag")
  let (text, c) ← tagTextFrom c.rest.length c
  return (String.ofList text, c)

def tagHandle (c : Cursor) : Except Error (String × Cursor) :=
  if c.peek != '!' then .error (c.error "expected '!'")
  else if c.peekAt 1 == ' ' then .ok ("!", c.next)
  else
    let (name, c) := c.next.span isNameChar
    if c.peek == '!' then .ok (String.ofList ('!' :: name ++ ['!']), c.next)
    else .error (c.error "expected '!'")

def checkApart (c : Cursor) : Except Error Unit :=
  if c.peek == ' ' || isBreakOrEnd c.peek then .ok () else .error (c.error "expected ' '")

def writtenTag (c : Cursor) : Except Error (WrittenTag × Cursor) := do
  let (tag, c) ←
    if c.peekAt 1 == '<' then do
      let (text, c) ← tagText (c.advance 2)
      if c.peek != '>' then throw (c.error "expected '>'")
      pure ((⟨none, text⟩ : WrittenTag), c.next)
    else if isSeparator (c.peekAt 1) then pure (⟨none, "!"⟩, c.next)
    else if ((c.next.span fun x => x == '\t' || !isSeparator x).1).contains '!' then do
      let (handle, c) ← tagHandle c
      let (text, c) ← tagText c
      pure (⟨some handle, text⟩, c)
    else do
      let (text, c) ← tagText c.next
      pure (⟨some "!", text⟩, c)
  checkApart c
  return (tag, c)

def skipBlanks (c : Cursor) : Cursor := (c.span (· == ' ')).2

def versionNumber (c : Cursor) : Except Error (Nat × Cursor) :=
  let (digits, rest) := c.span fun x => (Text.asciiDigit? x).isSome
  if digits.isEmpty then .error (c.error "expected a digit")
  else .ok ((digits.filterMap Text.asciiDigit?).foldl (fun n d => n * 10 + d) 0, rest)

def directiveBody (name : String) (c : Cursor) : Except Error (Directive × Cursor) :=
  if name == "YAML" then do
    let (major, c) ← versionNumber (skipBlanks c)
    if c.peek != '.' then throw (c.error "expected a digit or '.'")
    let (minor, c) ← versionNumber c.next
    checkApart c
    return (.version major minor, c)
  else if name == "TAG" then do
    let (handle, c) ← tagHandle (skipBlanks c)
    if c.peek != ' ' then throw (c.error "expected ' '")
    let (meaning, c) ← tagText (skipBlanks c)
    checkApart c
    return (.handle handle meaning, c)
  else .ok (.other name, (c.span fun x => !isBreakOrEnd x).2)

def directive (c : Cursor) : Except Error (Directive × Cursor) := do
  let (name, c) := c.next.span isNameChar
  if name.isEmpty then throw (c.error "expected alphabetic or numeric character")
  checkApart c
  let (d, c) ← directiveBody (String.ofList name) c
  let c := (skipBlanks c).skipComment
  if c.peek == endMark then return (d, c)
  else if isBreak c.peek then return (d, c.takeBreak.2)
  else throw (c.error "expected a comment or a line break")

end PathRouting.Yaml
