/-!
# Binary floating-point numbers of 64 bits

A finite number is a significand below 2^53 times a power of two not below 2^-1074. All
arithmetic is exact on natural numbers and rounded once, to the nearest number and, halfway
between two, to the even significand.
-/
namespace PathRouting

inductive Binary64 where
  | nan
  | infinity (negative : Bool)
  /-- The number `significand * 2 ^ exponent`, with the given sign. -/
  | finite (negative : Bool) (significand : Nat) (exponent : Int)
deriving DecidableEq

namespace Binary64

/-- The quotient rounded to the nearest natural number, a half going to the even one. -/
def roundHalfEven (num den : Nat) : Nat :=
  let q := num / den
  let twice := 2 * (num % den)
  if twice < den then q else if den < twice then q + 1 else q + q % 2

def binaryOrder (num den : Nat) : Int :=
  let guess : Int := (Nat.log2 num : Int) - (Nat.log2 den : Int)
  let reached : Bool :=
    match guess with
    | .ofNat g => den * Nat.pow 2 g ≤ num
    | .negSucc g => den ≤ num * Nat.pow 2 (g + 1)
  if reached then guess else guess - 1

/-- The quotient `num / den` divided by `2 ^ e`, rounded to the nearest natural number. -/
def scaledQuotient (num den : Nat) : Int → Nat
  | .ofNat e => roundHalfEven num (den * Nat.pow 2 e)
  | .negSucc e => roundHalfEven (num * Nat.pow 2 (e + 1)) den

def ofRatio (negative : Bool) (num den : Nat) : Binary64 :=
  if num = 0 then .finite negative 0 (-1074)
  else
    let e := max (-1074) (binaryOrder num den - 52)
    let m := scaledQuotient num den e
    let (m, e) := if m = Nat.pow 2 53 then (Nat.pow 2 52, e + 1) else (m, e)
    if 971 < e then .infinity negative else .finite negative m e

def decimalLength (n : Nat) : Nat := (Nat.toDigits 10 n).length

/-- The number nearest to `digits * 10 ^ exponent`. Beyond the reach of the format the result
is infinite or zero, which is decided before a large power is formed. -/
def ofDecimal (negative : Bool) (digits : Nat) (exponent : Int) : Binary64 :=
  if digits = 0 then .finite negative 0 (-1074)
  else
    let order : Int := (decimalLength digits : Int) + exponent
    if 310 < order then .infinity negative
    else if order < -330 then .finite negative 0 (-1074)
    else match exponent with
      | .ofNat e => ofRatio negative (digits * Nat.pow 10 e) 1
      | .negSucc e => ofRatio negative digits (Nat.pow 10 (e + 1))

def isZero : Binary64 → Bool
  | .finite _ m _ => m == 0
  | _ => false

def toRatio? : Binary64 → Option (Int × Nat)
  | .finite negative m (.ofNat e) =>
    some (if negative then -((m * Nat.pow 2 e : Nat) : Int) else ((m * Nat.pow 2 e : Nat) : Int), 1)
  | .finite negative m (.negSucc e) =>
    some (if negative then -(m : Int) else (m : Int), Nat.pow 2 (e + 1))
  | _ => none

/-- The order of a number against a signed quotient: `none` for a number that is not one. -/
def compareRatio (x : Binary64) (num : Int) (den : Nat) : Option Ordering :=
  match x with
  | .nan => none
  | .infinity negative => some (if negative then .lt else .gt)
  | .finite .. =>
    match x.toRatio? with
    | some (a, b) => some (compare (a * (den : Int)) (num * (b : Int)))
    | none => none

/-- The order of two numbers: `none` if one of them is not a number. -/
def order? (x y : Binary64) : Option Ordering :=
  match y with
  | .nan => none
  | .infinity negative =>
    match x with
    | .nan => none
    | .infinity n => some (if n = negative then .eq else if n then .lt else .gt)
    | .finite .. => some (if negative then .gt else .lt)
  | .finite .. =>
    match y.toRatio? with
    | some (num, den) => x.compareRatio num den
    | none => none

end Binary64

end PathRouting
