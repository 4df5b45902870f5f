import PathRouting.Regex.CharacterClass
import PathRouting.Regex.Repetition

/-!
# Matching

An expression is matched from a place onwards together with what has to match behind it. The
ways to match are tried in order: first alternative before second, more repetitions before
fewer or the other way round. The first one that lets the rest match wins.
-/
namespace PathRouting.Regex

open PathRouting.Text

def wordAhead (unicode : Bool) : List Char → Bool
  | [] => false
  | c :: _ => Category.word.holds unicode c

/-- Whether an anchor holds at a place. There is no word boundary, and not its opposite
either, in an empty text. -/
def Anchor.holds (mode : Mode) (kind : Anchor) (c : Cursor) : Bool :=
  match kind with
  | .textStart => c.before.isEmpty
  | .textEnd => c.rest.isEmpty
  | .lineStart => c.before.isEmpty || (mode.multiLine && c.before.head? == some '\n')
  | .lineEnd =>
    c.rest.isEmpty || c.rest == ['\n'] || (mode.multiLine && c.rest.head? == some '\n')
  | .wordBoundary =>
    !(c.before.isEmpty && c.rest.isEmpty) &&
      wordAhead mode.unicode c.before != wordAhead mode.unicode c.rest
  | .notWordBoundary =>
    !(c.before.isEmpty && c.rest.isEmpty) &&
      wordAhead mode.unicode c.before == wordAhead mode.unicode c.rest

/-- Try every place from the given one backwards to the start of the text. -/
def tryBackwards (test : Cursor → Option Cursor) (starts stops : List (Nat × Nat)) :
    List Char → List Char → Option Cursor
  | [], rest => test ⟨[], rest, starts, stops⟩
  | x :: before, rest =>
    match test ⟨x :: before, rest, starts, stops⟩ with
    | some r => some r
    | none => tryBackwards test starts stops before (x :: rest)

def endingAt (step : Step) (c : Cursor) : Option Cursor :=
  tryBackwards (fun d => step d fun e => if e.position = c.position then some e else none)
    c.starts c.stops c.before c.rest

def afterLook (negated : Bool) (c : Cursor) (found : Option Cursor)
    (k : Cursor → Option Cursor) : Option Cursor :=
  match found with
  | some d => if negated then none else k (c.withGroupsOf d)
  | none => if negated then k c else none

def Style.run (style : Style) (least : Nat) (most : Option Nat) (step : Step) : Step :=
  fun c k =>
    let room := most.map (· - least)
    match style with
    | .greedy => step.times least c fun d => step.greedy k (rounds d) room none d
    | .lazy => step.times least c fun d => step.lazy k (rounds d) room none d
    | .possessive =>
      (step.firstTimes least c).bind fun d => k (step.firstGreedy (rounds d) room d)

def Node.run : Node → Mode → Step
  | .empty, _, c, k => k c
  | .literal code, mode, c, k => (c.advance? (literalHolds mode code)).bind k
  | .any, mode, c, k => (c.advance? fun x => mode.dotAll || x != '\n').bind k
  | .oneOf negated items, mode, c, k => (c.advance? (setHolds mode negated items)).bind k
  | .anchor kind, mode, c, k => if kind.holds mode c then k c else none
  | .backreference number, mode, c, k =>
    (c.captured? number).bind fun text => (c.advanceAll? (sameCharacter mode) text).bind k
  | .sequence x y, mode, c, k => x.run mode c fun d => y.run mode d k
  | .choice x y, mode, c, k =>
    match x.run mode c k with
    | some r => some r
    | none => y.run mode c k
  | .group none body, mode, c, k => body.run mode c k
  | .group (some number) body, mode, c, k =>
    body.run mode (c.enter number) fun d => k (d.leave number)
  | .scoped added removed body, mode, c, k => body.run (mode.within added removed) c k
  | .atomic body, mode, c, k => (body.run mode c some).bind k
  | .look behind negated body, mode, c, k =>
    afterLook negated c
      (if behind then endingAt (body.run mode) c else body.run mode c some) k
  | .conditional number yes no, mode, c, k =>
    if (c.bounds? number).isSome then yes.run mode c k else no.run mode c k
  | .repetition style least most body, mode, c, k => style.run least most (body.run mode) c k

def Node.matchAll (node : Node) (mode : Mode) (text : List Char) : Option Cursor :=
  node.run mode (.start text) fun c => if c.rest.isEmpty then some c else none

end PathRouting.Regex
