import PathRouting.Regex.CharacterEscape

/-!
# Character sets

The text behind an opening square bracket. A closing bracket that comes first is a member, and
so is a hyphen at either end.
-/
namespace PathRouting.Regex

variable [CharacterNames]

def readMember (t : Token) (ts : List Token) : Except Failure (SetItem × List Token) :=
  match t with
  | .plain c => .ok (.single c.toNat, ts)
  | .escaped c => readSetEscape c ts

def rangeOf? (first last : SetItem) : Option SetItem :=
  match first, last with
  | .single a, .single b => if a ≤ b then some (.range a b) else none
  | _, _ => none

/-- The members up to the closing bracket. The first argument bounds the number of members,
the second is what was left to read at the opening bracket. -/
def readMembers :
    Nat → Nat → List SetItem → List Token → Except Failure (List SetItem × List Token)
  | 0, start, _, _ => .error (.mistake .unterminatedSet 0 start)
  | _ + 1, start, _, [] => .error (.mistake .unterminatedSet 0 start)
  | fuel + 1, start, items, t :: ts =>
    if t = .plain ']' && !items.isEmpty then .ok (items.reverse, ts)
    else do
      let (item, rest) ← readMember t ts
      match rest with
      | .plain '-' :: [] => .error (.mistake .unterminatedSet 0 start)
      | .plain '-' :: .plain ']' :: rest =>
        return ((.single '-'.toNat :: item :: items).reverse, rest)
      | .plain '-' :: u :: rest =>
        let (last, rest) ← readMember u rest
        match rangeOf? item last with
        | some range => readMembers fuel start (range :: items) rest
        | none =>
          failAt (.badRange (Token.text [t] ++ "-" ++ Token.text [u])) rest
            (t.length + 1 + u.length)
      | rest => readMembers fuel start (item :: items) rest

def readSet (ts : List Token) : Except Failure (Node × List Token) :=
  let start := Token.extent ts + 1
  let (negated, body) : Bool × List Token :=
    match ts with
    | .plain '^' :: rest => (true, rest)
    | _ => (false, ts)
  match readMembers (body.length + 1) start [] body with
  | .ok (items, rest) => .ok (.oneOf negated items, rest)
  | .error e => .error e

end PathRouting.Regex
