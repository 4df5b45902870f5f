import PathRouting.Value.Misuse

/-!
# Styled text

Styles are written as escape codes around a text. Where no colour is wanted, all codes are taken
out again, also those that the text had before.
-/
namespace PathRouting.Output

inductive Color where
  | black
  | red
  | green
  | yellow
  | blue
  | magenta
  | cyan
  | white
  | reset
  | bright (color : Color)
deriving DecidableEq

namespace Color

def code : Color → Nat
  | .black => 30
  | .red => 31
  | .green => 32
  | .yellow => 33
  | .blue => 34
  | .magenta => 35
  | .cyan => 36
  | .white => 37
  | .reset => 39
  | .bright c => c.code + 60

def basic : List (String × Color) := [
  ("black", .black), ("red", .red), ("green", .green), ("yellow", .yellow), ("blue", .blue),
  ("magenta", .magenta), ("cyan", .cyan), ("white", .white)]

def byName : List (String × Color) :=
  basic ++ ("reset", .reset) :: basic.map fun (name, c) => ("bright_" ++ name, .bright c)

def ofName (name : String) : Except Misuse Color :=
  match byName.lookup name with
  | some c => .ok c
  | none => .error (.unknownColor name)

end Color

structure Style where
  color : Option Color
  bold : Bool
  dim : Bool
deriving DecidableEq

namespace Style

def colored (c : Color) : Style := ⟨some c, false, false⟩

def escape (code : Nat) : String :=
  String.singleton (Char.ofNat 27) ++ "[" ++ Value.ofInt code ++ "m"

def paint (s : Style) (text : String) : String :=
  (s.color.map fun c => escape c.code).getD "" ++ (if s.bold then escape 1 else "") ++
    (if s.dim then escape 2 else "") ++ text ++ escape 0

end Style

def isLetter (c : Char) : Bool := ('a' ≤ c && c ≤ 'z') || ('A' ≤ c && c ≤ 'Z')

def isCodeChar (c : Char) : Bool := c == ';' || c == '?' || ('0' ≤ c && c ≤ '9')

def codeLength? : List Char → Option Nat
  | e :: '[' :: rest =>
    if e.toNat == 27 then
      let inside := rest.takeWhile isCodeChar
      match rest.drop inside.length with
      | c :: _ => if isLetter c then some (inside.length + 3) else none
      | [] => none
    else none
  | _ => none

/-- The text without escape codes, behind so many characters of it. -/
def withoutCodesFrom : Nat → List Char → List Char
  | _, [] => []
  | skip + 1, _ :: rest => withoutCodesFrom skip rest
  | 0, c :: rest =>
    match codeLength? (c :: rest) with
    | some n => withoutCodesFrom (n - 1) rest
    | none => c :: withoutCodesFrom 0 rest

def withoutCodes (text : String) : String := String.ofList (withoutCodesFrom 0 text.toList)

end PathRouting.Output
