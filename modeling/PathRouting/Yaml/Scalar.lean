import PathRouting.Text.Digit
import PathRouting.Yaml.Cursor

/-!
# The texts of scalars

Plain and quoted texts may go over several lines: a single line end becomes a blank, of several
all but the first are kept. Block texts keep their lines, or fold them in the same way.
-/
namespace PathRouting.Yaml

def foldBreaks (first : Char) (others : List Char) : List Char :=
  if first != '\n' then first :: others
  else if others.isEmpty then [' ']
  else others

/-! ## Plain texts -/

def endsPlain (inFlow : Bool) (x following : Char) : Bool :=
  isSeparator x ||
    (x == ':' &&
      (isSeparator following || (inFlow && [',', '[', ']', '\x7b', '\x7d'].contains following))) ||
    (inFlow && [',', '?', '[', ']', '\x7b', '\x7d'].contains x)

def plainRun (inFlow : Bool) : List Char → Nat
  | [] => 0
  | x :: rest => if endsPlain inFlow x (rest.headD endMark) then 0 else plainRun inFlow rest + 1

/-- Line ends and indentation up to the next line with something on it; nothing if a mark
between documents comes first. The first argument bounds the number of steps. -/
def plainBreaks : Nat → Cursor → Option (List Char) × Cursor
  | 0, c => (some [], c)
  | fuel + 1, c =>
    if c.peek == ' ' then plainBreaks fuel c.next
    else if isBreak c.peek then
      let (b, c) := c.takeBreak
      if c.atDocumentMark then (none, c)
      else
        let (more, c) := plainBreaks fuel c
        (more.map (b :: ·), c)
    else (some [], c)

/-- Blanks inside a plain text: what they are read as, nothing if the text ends here, and
whether there was a line end. -/
def plainSpaces (c : Cursor) : List Char × Bool × Cursor :=
  let (blanks, c) := c.span (· == ' ')
  if isBreak c.peek then
    let (b, c) := c.takeBreak
    if c.atDocumentMark then ([], true, c)
    else
      match plainBreaks (c.rest.length + 1) c with
      | (some more, c) => (foldBreaks b more, true, c)
      | (none, c) => ([], true, c)
  else (blanks, false, c)

/-- A plain text from here on, of which lines must be indented to a column. The blanks before
this part are given. The result says whether the text ended behind a line end. -/
def plainFrom (inFlow : Bool) (indent : Int) : Nat → List Char → Bool → Cursor →
    List Char × Bool × Cursor
  | 0, _, ended, c => ([], ended, c)
  | fuel + 1, spaces, ended, c =>
    if c.peek == '#' then ([], ended, c)
    else
      let n := plainRun inFlow c.rest
      if n = 0 then ([], ended, c)
      else
        let part := spaces ++ c.rest.take n
        let (spaces, ended, c) := plainSpaces (c.advance n)
        if spaces.isEmpty || c.peek == '#' || (!inFlow && decide ((c.column : Int) < indent)) then
          (part, ended, c)
        else
          let (more, ended, c) := plainFrom inFlow indent fuel spaces ended c
          (part ++ more, ended, c)

/-! ## Quoted texts -/

def simpleEscape? (c : Char) : Option Char :=
  match c with
  | '0' => some (Char.ofNat 0)
  | 'a' => some (Char.ofNat 7)
  | 'b' => some (Char.ofNat 8)
  | 't' | '\t' => some '\t'
  | 'n' => some '\n'
  | 'v' => some (Char.ofNat 11)
  | 'f' => some (Char.ofNat 12)
  | 'r' => some '\r'
  | 'e' => some (Char.ofNat 27)
  | ' ' | '"' | '\\' | '/' => some c
  | 'N' => some (Char.ofNat 0x85)
  | '_' => some (Char.ofNat 0xA0)
  | 'L' => some (Char.ofNat 0x2028)
  | 'P' => some (Char.ofNat 0x2029)
  | _ => none

def escapeLength? (c : Char) : Option Nat :=
  match c with
  | 'x' => some 2
  | 'u' => some 4
  | 'U' => some 8
  | _ => none

def hexValue? (digits : List Char) : Option Nat :=
  digits.foldl (fun acc d => do return (← acc) * 16 + (← Text.hexDigit? d)) (some 0)

/-- The character of a code; a code that no character has is replaced. -/
def ofCode (n : Nat) : Char :=
  if n < 0xD800 || (0xE000 ≤ n && n < 0x110000) then Char.ofNat n else Char.ofNat 0xFFFD

def quotedBreaks : Nat → Cursor → Except Error (List Char × Cursor)
  | 0, c => .ok ([], c)
  | fuel + 1, c =>
    if c.atDocumentMark then .error (c.error "found unexpected document separator")
    else
      let (_, c) := c.span fun x => x == ' ' || x == '\t'
      if isBreak c.peek then do
        let (b, c) := c.takeBreak
        let (more, c) ← quotedBreaks fuel c
        return (b :: more, c)
      else .ok ([], c)

def readEscape (c : Cursor) : Except Error (List Char × Cursor) :=
  match simpleEscape? c.peek, escapeLength? c.peek with
  | some x, _ => .ok ([x], c.next)
  | none, some n =>
    let c := c.next
    match hexValue? ((List.range n).map c.peekAt) with
    | some code => .ok ([ofCode code], c.advance n)
    | none => .error (c.error "expected hexadecimal digits in an escape sequence")
  | none, none =>
    if isBreak c.peek then quotedBreaks c.rest.length c.takeBreak.2
    else .error (c.error "found unknown escape character")

def quotedSpaces (c : Cursor) : Except Error (List Char × Cursor) :=
  let (blanks, c) := c.span fun x => x == ' ' || x == '\t'
  if isBreak c.peek then do
    let (b, c) := c.takeBreak
    let (more, c) ← quotedBreaks (c.rest.length + 1) c
    return (foldBreaks b more, c)
  else .ok (blanks, c)

def quotedFrom (double : Bool) : Nat → Cursor → Except Error (List Char × Cursor)
  | 0, c => .error (c.error "found unexpected end of stream")
  | fuel + 1, c =>
    let x := c.peek
    let continueWith (cs : List Char) (c : Cursor) : Except Error (List Char × Cursor) := do
      let (more, c) ← quotedFrom double fuel c
      return (cs ++ more, c)
    if x == endMark then .error (c.error "found unexpected end of stream")
    else if isSeparator x then do
      let (cs, c) ← quotedSpaces c
      continueWith cs c
    else if double then
      if x == '"' then .ok ([], c.next)
      else if x == '\\' then do
        let (cs, c) ← readEscape c.next
        continueWith cs c
      else continueWith [x] c.next
    else if x == '\'' then
      if c.peekAt 1 == '\'' then continueWith ['\''] (c.advance 2) else .ok ([], c.next)
    else continueWith [x] c.next

/-! ## Block texts -/

inductive Chomping where
  | clip
  | keep
  | strip
deriving DecidableEq

def chomping? (c : Char) : Option Chomping :=
  if c == '+' then some .keep else if c == '-' then some .strip else none

/-- The indicators behind the sign of a block text: what becomes of its last line ends, and its
own indentation if that is given. -/
def blockIndicators (c : Cursor) : Except Error (Chomping × Option Nat × Cursor) :=
  let (sign, c) := match chomping? c.peek with
    | some s => (some s, c.next)
    | none => (none, c)
  let (width, c) := match Text.asciiDigit? c.peek with
    | some d => (some d, c.next)
    | none => (none, c)
  let (sign, c) := match sign, width, chomping? c.peek with
    | none, some _, some s => (some s, c.next)
    | sign, _, _ => (sign, c)
  if width == some 0 then
    .error (c.error "expected indentation indicator in the range 1-9, but found 0")
  else if c.peek == ' ' || isBreakOrEnd c.peek then .ok (sign.getD .clip, width, c)
  else .error (c.error "expected chomping or indentation indicators")

def blockHeaderEnd (c : Cursor) : Except Error Cursor :=
  let c := (c.span (· == ' ')).2.skipComment
  if c.peek == endMark then .ok c
  else if isBreak c.peek then .ok c.takeBreak.2
  else .error (c.error "expected a comment or a line break")

def blockIndentation : Nat → Nat → Cursor → List Char × Nat × Cursor
  | 0, widest, c => ([], widest, c)
  | fuel + 1, widest, c =>
    if c.peek == ' ' then
      let c := c.next
      blockIndentation fuel (max widest c.column) c
    else if isBreak c.peek then
      let (b, c) := c.takeBreak
      let (more, widest, c) := blockIndentation fuel widest c
      (b :: more, widest, c)
    else ([], widest, c)

def skipIndent (indent : Int) : Nat → Cursor → Cursor
  | 0, c => c
  | fuel + 1, c =>
    if decide ((c.column : Int) < indent) && c.peek == ' ' then skipIndent indent fuel c.next else c

def blockBreaks (indent : Int) : Nat → Cursor → List Char × Cursor
  | 0, c => ([], c)
  | fuel + 1, c =>
    let c := skipIndent indent c.rest.length c
    if isBreak c.peek then
      let (b, c) := c.takeBreak
      let (more, c) := blockBreaks indent fuel c
      (b :: more, c)
    else ([], c)

/-- The lines of a block text. The result is the text up to its last line, the line end behind
that, and the empty lines after it. -/
def blockLines (folded : Bool) (indent : Int) : Nat → List Char → Cursor →
    List Char × List Char × List Char × Cursor
  | 0, breaks, c => ([], [], breaks, c)
  | fuel + 1, breaks, c =>
    if decide ((c.column : Int) = indent) && c.peek != endMark then
      let startsBlank := c.peek == ' ' || c.peek == '\t'
      let (line, c) := c.span fun x => !isBreakOrEnd x
      let (ending, c) := if isBreak c.peek then
          let (b, c) := c.takeBreak
          ([b], c)
        else ([], c)
      let (more, c) := blockBreaks indent (c.rest.length + 1) c
      if decide ((c.column : Int) = indent) && c.peek != endMark then
        let joint :=
          if folded && ending == ['\n'] && !startsBlank && c.peek != ' ' && c.peek != '\t' then
            if more.isEmpty then [' '] else []
          else ending
        let (others, ending, tail, c) := blockLines folded indent fuel more c
        (breaks ++ line ++ joint ++ others, ending, tail, c)
      else (breaks ++ line, ending, more, c)
    else ([], [], breaks, c)

/-- A block text inside a block of the given indentation; the cursor is behind its sign. -/
def blockText (folded : Bool) (outer : Int) (c : Cursor) : Except Error (List Char × Cursor) := do
  let (chomping, width, c) ← blockIndicators c
  let c ← blockHeaderEnd c
  let least := max (outer + 1) 1
  let (indent, breaks, c) := match width with
    | none =>
      let (breaks, widest, c) := blockIndentation (c.rest.length + 1) 0 c
      (max least (widest : Int), breaks, c)
    | some w =>
      let indent := least + (w : Int) - 1
      let (breaks, c) := blockBreaks indent (c.rest.length + 1) c
      (indent, breaks, c)
  let (text, ending, tail, c) := blockLines folded indent (c.rest.length + 1) breaks c
  let text := match chomping with
    | .strip => text
    | .clip => text ++ ending
    | .keep => text ++ ending ++ tail
  return (text, c)

end PathRouting.Yaml
