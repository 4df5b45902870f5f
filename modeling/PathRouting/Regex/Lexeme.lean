import PathRouting.Number.Reader
import PathRouting.Regex.CharacterSet

/-!
# Lexemes of a regular expression

A lexeme is the least part of an expression that can be read without knowing what stands
before it, but for whether blanks and comments are to be skipped.
-/
namespace PathRouting.Regex

open PathRouting.Text

inductive GroupKey where
  | name (name : String)
  | number (number : Nat)
deriving DecidableEq

inductive Opening where
  | capture (name : Option String)
  | plain
  | atomic
  | look (behind negated : Bool)
  /-- A condition on a group, whose key is written with the given number of characters. -/
  | conditional (key : GroupKey) (length : Nat)
  | scoped (added removed : List Flag)
deriving DecidableEq

inductive Lexeme where
  | blank
  | node (node : Node)
  | numbered (number digits : Nat)
  | named (name : String)
  | quantifier (style : Style) (least : Nat) (most : Option Nat)
  | opening (kind : Opening)
  | flags (added : List Flag)
  | bar
  | close
deriving DecidableEq

/-- A bound of a repetition must stay below this number. -/
def repetitionLimit : Nat := 4294967295

/-- A group is referred to by a number below this one. -/
def groupLimit : Nat := 1073741823

def readStyle : List Token → Style × List Token
  | .plain '?' :: rest => (.lazy, rest)
  | .plain '+' :: rest => (.possessive, rest)
  | ts => (.greedy, ts)

def quantifier (least : Nat) (most : Option Nat) (ts : List Token) :
    Except Failure (Lexeme × List Token) :=
  let (style, rest) := readStyle ts
  .ok (.quantifier style least most, rest)

/-- Bounds in braces: what stands between the braces and what follows them, if it has the
form of bounds at all. -/
def splitBounds? (ts : List Token) : Option (List Char × Option (List Char) × List Token) :=
  let (least, rest) := Token.takeChars Token.digit? ts.length ts
  match rest with
  | .plain ',' :: rest =>
    let (most, rest) := Token.takeChars Token.digit? rest.length rest
    match rest with
    | .plain '\x7d' :: rest => some (least, some most, rest)
    | _ => none
  | .plain '\x7d' :: rest => if least.isEmpty then none else some (least, none, rest)
  | _ => none

/-- What stands behind an opening brace: bounds, or else the brace was a literal character. -/
def readBounds (ts : List Token) : Except Failure (Lexeme × List Token) :=
  match splitBounds? ts with
  | none => .ok (.node (.literal '\x7b'.toNat), ts)
  | some (least, most, rest) =>
    let low := valueOf 10 least
    let high : Option Nat :=
      match most with
      | none => some low
      | some digits => if digits.isEmpty then none else some (valueOf 10 digits)
    if repetitionLimit ≤ low || high.any (repetitionLimit ≤ ·) then
      .error (.repetitionTooLarge (Token.extent rest))
    else if high.any (· < low) then
      failAt .leastAboveMost rest (Token.extent ts - Token.extent rest)
    else quantifier low high rest

def readComment (start : Nat) (ts : List Token) : Except Failure (Lexeme × List Token) :=
  match splitAtPlain? ')' ts with
  | some (_, rest) => .ok (.blank, rest)
  | none => .error (.mistake .unterminatedComment 0 start)

def readGroupName (terminator : Char) (ts : List Token) :
    Except Failure (String × List Token) := do
  let (name, rest) ← readName terminator "group name" ts
  if isIdentifier name.toList then return (name, rest)
  else failAt (.badName name) rest (name.length + 1)

def readGroupKey (ts : List Token) : Except Failure (Lexeme × List Token) := do
  let (name, rest) ← readName ')' "group name" ts
  let back := name.length + 1
  if isIdentifier name.toList then return (.opening (.conditional (.name name) name.length), rest)
  else match Number.integer? name.toList with
    | none => failAt (.badName name) rest back
    | some n =>
      if n < 0 then failAt (.badName name) rest back
      else if n = 0 then failAt .badGroupNumber rest back
      else if groupLimit ≤ n.toNat then failAt (.invalidReference n.toNat) rest back
      else return (.opening (.conditional (.number n.toNat) name.length), rest)

def readNamedForm (ts : List Token) : Except Failure (Lexeme × List Token) :=
  match ts with
  | [] => failAt .unexpectedEnd [] 0
  | .plain '<' :: rest => do
    let (name, rest) ← readGroupName '>' rest
    return (.opening (.capture (some name)), rest)
  | .plain '=' :: rest => do
    let (name, rest) ← readGroupName ')' rest
    return (.named name, rest)
  | t :: rest => failAt (.unknownExtension ("P" ++ Token.text [t])) rest (t.length + 2)

def readLookBehind (ts : List Token) : Except Failure (Lexeme × List Token) :=
  match ts with
  | [] => failAt .unexpectedEnd [] 0
  | .plain '=' :: rest => .ok (.opening (.look true false), rest)
  | .plain '!' :: rest => .ok (.opening (.look true true), rest)
  | t :: rest => failAt (.unknownExtension ("<" ++ Token.text [t])) rest (t.length + 2)

def flag? : Token → Option Flag
  | .plain c => Flag.ofLetter? c
  | .escaped _ => none

/-- A token that is no flag: a letter is an unknown flag, for anything else the given mistake
is made. -/
def notAFlag (t : Token) (otherwise : Mistake) : Mistake :=
  match t with
  | .plain c => if isAlphabetic c then .unknownFlag else otherwise
  | .escaped _ => otherwise

def checkFlagOn (flag : Flag) (added : List Flag) (rest : List Token) : Except Failure Unit :=
  if flag = .locale then failAt .localeFlag rest 0
  else if flag.selectsAlphabet && added.any (fun f => f.selectsAlphabet && f != flag) then
    failAt .alphabetFlags rest 0
  else .ok ()

/-- Flags to switch on, up to the character that ends them, which is returned too. -/
def readFlagsOn (flag : Flag) (added : List Flag) :
    List Token → Except Failure (List Flag × Char × List Token)
  | [] => do
    checkFlagOn flag added []
    failAt .missingFlagEnd [] 0
  | t :: rest => do
    checkFlagOn flag added (t :: rest)
    if t = .plain ')' then return (added ++ [flag], ')', rest)
    else if t = .plain '-' then return (added ++ [flag], '-', rest)
    else if t = .plain ':' then return (added ++ [flag], ':', rest)
    else match flag? t with
      | some next => readFlagsOn next (added ++ [flag]) rest
      | none => failAt (notAFlag t .missingFlagEnd) rest t.length

def readFlagsOff (flag : Flag) (removed : List Flag) :
    List Token → Except Failure (List Flag × List Token)
  | [] =>
    if flag.selectsAlphabet then failAt .alphabetFlagOff [] 0 else failAt .missingColon [] 0
  | t :: rest =>
    if flag.selectsAlphabet then failAt .alphabetFlagOff (t :: rest) 0
    else if t = .plain ':' then .ok (removed ++ [flag], rest)
    else match flag? t with
      | some next => readFlagsOff next (removed ++ [flag]) rest
      | none => failAt (notAFlag t .missingColon) rest t.length

def readRemoved (ts : List Token) : Except Failure (List Flag × List Token) :=
  match ts with
  | [] => failAt .missingFlag [] 0
  | t :: rest =>
    match flag? t with
    | some flag => readFlagsOff flag [] rest
    | none => failAt (notAFlag t .missingFlag) rest t.length

def readScoped (added : List Flag) (ended : Char) (ts : List Token) :
    Except Failure (Lexeme × List Token) :=
  if ended == ')' then .ok (.flags added, ts)
  else if added.contains .template then failAt .globalFlagOn ts 1
  else if ended == '-' then do
    let (removed, rest) ← readRemoved ts
    if removed.contains .template then failAt .globalFlagOff rest 1
    else if added.any removed.contains then failAt .flagOnAndOff rest 1
    else return (.opening (.scoped added removed), rest)
  else .ok (.opening (.scoped added []), ts)

/-- What follows `(?`. The first argument is what was left to read at the bracket. -/
def readExtension (start : Nat) (ts : List Token) : Except Failure (Lexeme × List Token) :=
  match ts with
  | [] => failAt .unexpectedEnd [] 0
  | .plain 'P' :: rest => readNamedForm rest
  | .plain ':' :: rest => .ok (.opening .plain, rest)
  | .plain '#' :: rest => readComment start rest
  | .plain '=' :: rest => .ok (.opening (.look false false), rest)
  | .plain '!' :: rest => .ok (.opening (.look false true), rest)
  | .plain '<' :: rest => readLookBehind rest
  | .plain '(' :: rest => readGroupKey rest
  | .plain '>' :: rest => .ok (.opening .atomic, rest)
  | .plain '-' :: rest => readScoped [] '-' rest
  | t :: rest =>
    match flag? t with
    | some flag => do
      let (added, ended, rest) ← readFlagsOn flag [] rest
      readScoped added ended rest
    | none => failAt (.unknownExtension (Token.text [t])) rest (t.length + 1)

def isSkipped : Token → Bool
  | .plain c => isAsciiBlank c
  | .escaped _ => false

variable [CharacterNames]

def readPlain (c : Char) (ts : List Token) : Except Failure (Lexeme × List Token) :=
  match c with
  | '|' => .ok (.bar, ts)
  | ')' => .ok (.close, ts)
  | '[' => do
    let (node, rest) ← readSet ts
    return (.node node, rest)
  | '.' => .ok (.node .any, ts)
  | '^' => .ok (.node (.anchor .lineStart), ts)
  | '$' => .ok (.node (.anchor .lineEnd), ts)
  | '*' => quantifier 0 none ts
  | '+' => quantifier 1 none ts
  | '?' => quantifier 0 (some 1) ts
  | '\x7b' => readBounds ts
  | '(' =>
    match ts with
    | .plain '?' :: rest => readExtension (Token.extent ts + 1) rest
    | _ => .ok (.opening (.capture none), ts)
  | c => .ok (.node (.literal c.toNat), ts)

def readLexeme (verbose : Bool) (t : Token) (ts : List Token) :
    Except Failure (Lexeme × List Token) :=
  match t with
  | .escaped c => do
    let (escape, rest) ← readEscape c ts
    match escape with
    | .node node => return (.node node, rest)
    | .reference number digits => return (.numbered number digits, rest)
  | .plain c =>
    if verbose && isSkipped t then .ok (.blank, ts)
    else if verbose && c == '#' then
      .ok (.blank, ((splitAtPlain? '\n' ts).map Prod.snd).getD [])
    else readPlain c ts

end PathRouting.Regex
