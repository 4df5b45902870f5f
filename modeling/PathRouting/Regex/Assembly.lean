import PathRouting.Regex.Lexeme
import PathRouting.Regex.Width

/-!
# Putting lexemes together

Lexemes are taken one at a time. A stack of frames holds what was read before each bracket
that is still open, so a bracket can only close what was opened after everything below it.
-/
namespace PathRouting.Regex

/-- What was read at one level of brackets, the last part first: the finished alternatives and
the parts of the current one. -/
structure Level where
  alternatives : List Node
  items : List Node
  /-- Whether blanks and comments are skipped. -/
  verbose : Bool

def Level.empty (verbose : Bool) : Level := ⟨[], [], verbose⟩

def Level.current (l : Level) : Node := .ofList l.items.reverse

def Level.node (l : Level) : Node := .ofAlternatives (l.current :: l.alternatives).reverse

inductive Bracket where
  | capture (number : Nat)
  | plain
  | atomic
  /-- A look-behind knows whether it is inside another one. -/
  | look (behind negated nested : Bool)
  /-- A condition on a group, with the first of its two branches if that is finished. -/
  | conditional (number : Nat) (yes : Option Node)
  | scoped (added removed : List Flag)

structure Frame where
  bracket : Bracket
  openedAt : Nat
  outer : Level

structure Assembly where
  frames : List Frame
  level : Level
  /-- The widths of the groups by number; an open group has none yet. -/
  groups : List (Option Width)
  names : List (String × Nat)
  /-- The groups that conditions ask about, each with what was left to read there. -/
  asked : List (Nat × Nat)
  /-- Inside a look-behind, the number of groups that were opened before it. -/
  behindLimit : Option Nat
  flags : List Flag

namespace Assembly

def start : Assembly := ⟨[], .empty false, [], [], [], none, []⟩

def append (a : Assembly) (x : Node) : Assembly :=
  { a with level := { a.level with items := x :: a.level.items } }

def isClosed (a : Assembly) (number : Nat) : Bool := (a.groups[number - 1]?.join).isSome

/-- A reference inside a look-behind must go to a group that was closed before it. -/
def checkBehind (a : Assembly) (number : Nat) (rest : List Token) : Except Failure Unit :=
  match a.behindLimit with
  | none => .ok ()
  | some limit =>
    if !a.isClosed number then failAt .openReference rest 0
    else if limit < number then failAt .lookBehindReference rest 0
    else .ok ()

def pushNumbered (a : Assembly) (number digits : Nat) (rest : List Token) :
    Except Failure Assembly :=
  if a.groups.length < number then failAt (.invalidReference number) rest digits
  else if !a.isClosed number then failAt .openReference rest (digits + 1)
  else do
    a.checkBehind number rest
    return a.append (.backreference number)

def pushNamed (a : Assembly) (name : String) (rest : List Token) : Except Failure Assembly :=
  match a.names.lookup name with
  | none => failAt (.unknownGroup name) rest (name.length + 1)
  | some number =>
    if !a.isClosed number then failAt .openReference rest (name.length + 1)
    else do
      a.checkBehind number rest
      return a.append (.backreference number)

def isAnchor : Node → Bool
  | .anchor _ => true
  | _ => false

/-- Whether a part is a repetition, which cannot be repeated again without a bracket. -/
def isRepetition : Node → Bool
  | .repetition .. => true
  | _ => false

/-- Repeat the last part. The place of a mistake does not count the character of the style. -/
def pushQuantifier (a : Assembly) (here : Nat) (style : Style) (least : Nat) (most : Option Nat)
    (rest : List Token) : Except Failure Assembly :=
  let remaining := Token.extent rest + (if style = .greedy then 0 else 1)
  match a.level.items with
  | [] => .error (.mistake .nothingToRepeat remaining (here - remaining))
  | x :: items =>
    if isAnchor x then .error (.mistake .nothingToRepeat remaining (here - remaining))
    else if isRepetition x then .error (.mistake .multipleRepeat remaining (here - remaining))
    else .ok { a with level := { a.level with items := .repetition style least most x :: items } }

def enter (a : Assembly) (bracket : Bracket) (here : Nat) (verbose : Bool) : Assembly :=
  { a with frames := ⟨bracket, here, a.level⟩ :: a.frames, level := .empty verbose }

def resolve (a : Assembly) (key : GroupKey) (length : Nat) (rest : List Token) :
    Except Failure (Assembly × Nat) :=
  match key with
  | .name name =>
    match a.names.lookup name with
    | none => failAt (.unknownGroup name) rest (length + 1)
    | some number => .ok (a, number)
  | .number number =>
    if (a.asked.lookup number).isSome then .ok (a, number)
    else .ok ({ a with asked := a.asked ++ [(number, Token.extent rest + length + 1)] }, number)

def enterCapture (a : Assembly) (name : Option String) (here : Nat) (rest : List Token) :
    Except Failure Assembly :=
  let number := a.groups.length + 1
  let opened : Assembly :=
    { a with groups := a.groups ++ [none] }.enter (.capture number) here a.level.verbose
  match name with
  | none => .ok opened
  | some name =>
    match a.names.lookup name with
    | some previous => failAt (.redefinedGroup name number previous) rest (name.length + 1)
    | none => .ok { opened with names := (name, number) :: opened.names }

def pushOpening (a : Assembly) (kind : Opening) (here : Nat) (rest : List Token) :
    Except Failure Assembly :=
  let verbose := a.level.verbose
  match kind with
  | .capture name => a.enterCapture name here rest
  | .plain => .ok (a.enter .plain here verbose)
  | .atomic => .ok (a.enter .atomic here verbose)
  | .look behind negated =>
    let nested := a.behindLimit.isSome
    let limit := if behind && !nested then some a.groups.length else a.behindLimit
    .ok ({ a with behindLimit := limit }.enter (.look behind negated nested) here verbose)
  | .conditional key length => do
    let (a, number) ← a.resolve key length rest
    a.checkBehind number rest
    return a.enter (.conditional number none) here verbose
  | .scoped added removed =>
    .ok (a.enter (.scoped added removed) here
      (Mode.combine verbose .verbose added removed))

/-- Flags for the whole expression, which must stand at its very start. -/
def pushFlags (a : Assembly) (added : List Flag) (here : Nat) (rest : List Token) :
    Except Failure Assembly :=
  let remaining := Token.extent rest
  if a.frames.isEmpty && a.level.alternatives.isEmpty && a.level.items.isEmpty then
    let flags := a.flags ++ added
    .ok { a with flags := flags, level := .empty (flags.contains .verbose) }
  else .error (.mistake .misplacedFlags remaining (here - remaining))

/-- End the current alternative. A condition has two branches at most. -/
def pushBar (a : Assembly) (here : Nat) : Except Failure Assembly :=
  match a.frames with
  | ⟨.conditional number yes, openedAt, outer⟩ :: frames =>
    match yes with
    | some _ => .error (.mistake .tooManyBranches here 0)
    | none =>
      .ok { a with
        frames := ⟨.conditional number (some a.level.current), openedAt, outer⟩ :: frames
        level := .empty a.level.verbose }
  | _ =>
    .ok { a with level := ⟨a.level.current :: a.level.alternatives, [], a.level.verbose⟩ }

/-- The two alphabets cannot both be chosen for the whole expression. -/
def alphabetsClash (a : Assembly) : Bool :=
  a.flags.contains .ascii && a.flags.contains .unicode

def leave (a : Assembly) (outer : Level) (frames : List Frame) (x : Node) : Assembly :=
  { a with frames := frames, level := { outer with items := x :: outer.items } }

def pushClose (a : Assembly) (here : Nat) : Except Failure Assembly :=
  match a.frames with
  | [] =>
    if a.alphabetsClash then .error (.alphabetsClash here)
    else .error (.mistake .unbalanced here 0)
  | ⟨bracket, _, outer⟩ :: frames =>
    let body := a.level.node
    match bracket with
    | .capture number =>
      let width := body.width a.groups
      .ok ({ a with groups := a.groups.set (number - 1) (some width) }.leave outer frames
        (.group (some number) body))
    | .plain => .ok (a.leave outer frames (.group none body))
    | .atomic => .ok (a.leave outer frames (.atomic body))
    | .look behind negated nested =>
      let limit := if behind && !nested then none else a.behindLimit
      .ok ({ a with behindLimit := limit }.leave outer frames (.look behind negated body))
    | .conditional number none =>
      .ok (a.leave outer frames (.conditional number a.level.current .empty))
    | .conditional number (some yes) =>
      .ok (a.leave outer frames (.conditional number yes a.level.current))
    | .scoped added removed => .ok (a.leave outer frames (.scoped added removed body))

/-- Take one lexeme. The number is what was left to read at its start, the tokens are those
behind it. -/
def push (a : Assembly) (lexeme : Lexeme) (here : Nat) (rest : List Token) :
    Except Failure Assembly :=
  match lexeme with
  | .blank => .ok a
  | .node x => .ok (a.append x)
  | .numbered number digits => a.pushNumbered number digits rest
  | .named name => a.pushNamed name rest
  | .quantifier style least most => a.pushQuantifier here style least most rest
  | .opening kind => a.pushOpening kind here rest
  | .flags added => a.pushFlags added here rest
  | .bar => a.pushBar here
  | .close => a.pushClose here

variable [CharacterNames]

/-- Take all tokens, of which the first few belong to a lexeme that was read already. -/
def pushAll : Nat → Assembly → List Token → Except Failure Assembly
  | _, a, [] => .ok a
  | skip + 1, a, _ :: ts => pushAll skip a ts
  | 0, a, t :: ts =>
    match readLexeme a.level.verbose t ts with
    | .error e => .error e
    | .ok (lexeme, rest) =>
      match a.push lexeme (Token.extent (t :: ts)) rest with
      | .error e => .error e
      | .ok a => pushAll (ts.length - rest.length) a ts

end Assembly

structure Expression where
  root : Node
  groups : Nat
deriving DecidableEq

def Assembly.finish (a : Assembly) (length : Nat) : Except Error Expression :=
  match a.frames with
  | frame :: _ => .error (.mistake .unterminatedGroup (length - frame.openedAt))
  | [] =>
    if a.alphabetsClash then .error .alphabetsClash
    else match a.asked.find? fun (number, _) => a.groups.length < number with
      | some (number, remaining) =>
        .error (.mistake (.invalidReference number) (length - remaining))
      | none =>
        let root := a.level.node
        match root.lateError? a.groups (a.flags.contains .template) with
        | some e => .error e
        | none => .ok ⟨root, a.groups.length⟩

/-- Read a regular expression. A backslash at the very end is a mistake that is noticed when
the token before it has been taken: an earlier failure wins. -/
def ofChars [CharacterNames] (source : List Char) : Except Error Expression :=
  let (tokens, dangling) := Token.ofChars source
  let length := Token.extent tokens
  match Assembly.start.pushAll 0 tokens with
  | .error e =>
    if dangling && e.remaining = 0 then .error (.mistake .danglingEscape length)
    else .error (e.toError length)
  | .ok a => if dangling then .error (.mistake .danglingEscape length) else a.finish length

end PathRouting.Regex
