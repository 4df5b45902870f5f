/-!
# Tokens of a regular expression

A backslash and the character behind it belong together; every other character stands alone.
-/
namespace PathRouting.Regex

inductive Token where
  | plain (c : Char)
  | escaped (c : Char)
deriving DecidableEq

namespace Token

def chars : Token → List Char
  | .plain c => [c]
  | .escaped c => ['\\', c]

def length : Token → Nat
  | .plain _ => 1
  | .escaped _ => 2

def digit? : Token → Option Char
  | .plain c => if '0' ≤ c && c ≤ '9' then some c else none
  | .escaped _ => none

/-- The tokens of a text, and whether a backslash is left over at its end. -/
def ofChars : List Char → List Token × Bool
  | [] => ([], false)
  | ['\\'] => ([], true)
  | '\\' :: c :: rest =>
    let (tokens, dangling) := ofChars rest
    (.escaped c :: tokens, dangling)
  | c :: rest =>
    let (tokens, dangling) := ofChars rest
    (.plain c :: tokens, dangling)

def extent (tokens : List Token) : Nat := (tokens.map length).foldr (· + ·) 0

def text (tokens : List Token) : String := String.ofList (tokens.flatMap chars)

@[simp] theorem extent_nil : extent [] = 0 := rfl

@[simp] theorem extent_cons (t : Token) (ts : List Token) :
    extent (t :: ts) = t.length + extent ts := rfl

/-- Tokens from the head as long as a test gives a character for them, at most a number. -/
def takeChars (test : Token → Option Char) : Nat → List Token → List Char × List Token
  | 0, ts => ([], ts)
  | _ + 1, [] => ([], [])
  | n + 1, t :: ts =>
    match test t with
    | none => ([], t :: ts)
    | some c =>
      let (cs, rest) := takeChars test n ts
      (c :: cs, rest)

end Token

end PathRouting.Regex
