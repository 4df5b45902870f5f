import PathRouting.Regex.Assembly

/-!
# Self-contained expressions

An expression may depend on where it stands: on the groups before it, if it counts them, on the
text around what it takes, if it looks there, and on the text behind, if a part that keeps its
first way to match has another such part inside. It may also depend on what was tried before, if it
asks about a group that is still open, or captures again and again without reconsidering.
-/
namespace PathRouting.Regex

def Lexeme.countsGroups : Lexeme → Bool
  | .numbered .. => true
  | .opening (.conditional (.number _) _) => true
  | _ => false

variable [CharacterNames]

/-- The lexemes that are taken from tokens, of which the first few belong to a lexeme that was
read already. -/
def Assembly.lexemes : Nat → Assembly → List Token → List Lexeme
  | _, _, [] => []
  | skip + 1, a, _ :: ts => lexemes skip a ts
  | 0, a, t :: ts =>
    match readLexeme a.level.verbose t ts with
    | .error _ => []
    | .ok (lexeme, rest) =>
      match a.push lexeme (Token.extent (t :: ts)) rest with
      | .error _ => []
      | .ok a => lexeme :: lexemes (ts.length - rest.length) a ts

def refersByName (source : List Char) : Bool :=
  (Assembly.start.lexemes 0 (Token.ofChars source).1).all fun lexeme => !lexeme.countsGroups

namespace Node

/-- Whether some part is a condition on a place, or on the text around it. -/
def looksAround : Node → Bool
  | .anchor _ | .look .. => true
  | .empty | .literal _ | .any | .oneOf .. | .backreference _ => false
  | .sequence x y | .choice x y | .conditional _ x y => x.looksAround || y.looksAround
  | .group _ x | .scoped _ _ x | .atomic x | .repetition _ _ _ x => x.looksAround

/-- Whether some part keeps its first way to match. -/
def commits : Node → Bool
  | .atomic _ | .repetition .possessive _ _ _ => true
  | .empty | .literal _ | .any | .oneOf .. | .anchor _ | .backreference _ => false
  | .sequence x y | .choice x y | .conditional _ x y => x.commits || y.commits
  | .group _ x | .scoped _ _ x | .look _ _ x | .repetition _ _ _ x => x.commits

/-- Whether a part that keeps its first way to match has another such part inside. -/
def recommits : Node → Bool
  | .atomic x | .repetition .possessive _ _ x => x.commits
  | .empty | .literal _ | .any | .oneOf .. | .anchor _ | .backreference _ => false
  | .sequence x y | .choice x y | .conditional _ x y => x.recommits || y.recommits
  | .group _ x | .scoped _ _ x | .look _ _ x | .repetition _ _ _ x => x.recommits

/-- Whether a conditional asks about a group that it stands inside, or about one of the groups that
are open around the expression. -/
def asksOpen : Node → List Nat → Bool
  | .conditional number x y, opened =>
    opened.contains number || x.asksOpen opened || y.asksOpen opened
  | .group number x, opened => x.asksOpen (number.toList ++ opened)
  | .empty, _ | .literal _, _ | .any, _ | .oneOf .., _ | .anchor _, _ | .backreference _, _ => false
  | .sequence x y, opened | .choice x y, opened => x.asksOpen opened || y.asksOpen opened
  | .scoped _ _ x, opened | .atomic x, opened | .look _ _ x, opened | .repetition _ _ _ x, opened =>
    x.asksOpen opened

def captures : Node → Bool
  | .group (some _) _ => true
  | .empty | .literal _ | .any | .oneOf .. | .anchor _ | .backreference _ => false
  | .sequence x y | .choice x y | .conditional _ x y => x.captures || y.captures
  | .group none x | .scoped _ _ x | .atomic x | .look _ _ x | .repetition _ _ _ x => x.captures

/-- Whether a repetition that never reconsiders captures inside. -/
def recaptures : Node → Bool
  | .repetition .possessive _ _ x => x.captures
  | .empty | .literal _ | .any | .oneOf .. | .anchor _ | .backreference _ => false
  | .sequence x y | .choice x y | .conditional _ x y => x.recaptures || y.recaptures
  | .group _ x | .scoped _ _ x | .atomic x | .look _ _ x | .repetition _ _ _ x => x.recaptures

end Node

/-- Whether an expression can be read, refers to its groups by name, and depends on nothing but the
text that it takes. -/
def isSelfContained (source : List Char) : Bool :=
  match ofChars source with
  | .error _ => false
  | .ok e => refersByName source && !e.root.looksAround && !e.root.recommits &&
      !e.root.asksOpen [] && !e.root.recaptures

end PathRouting.Regex
