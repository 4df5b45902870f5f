import PathRouting.Number.Binary64

/-!
# The shortest decimal that reads back

A finite number is written with the fewest digits from which rounding recovers it, and of
those decimals the nearest. A decimal grid holds such a point if and only if one of the two
neighbours of the number on that grid is one, so only neighbours are tried.
-/
namespace PathRouting

/-- A decimal `digits * 10 ^ exponent`. -/
structure Decimal where
  digits : Nat
  exponent : Int
deriving DecidableEq

structure DecimalLayout where
  /-- The point stands among the digits while the number is at least ten to this power … -/
  leastPositional : Int
  /-- … and less than ten to this power. -/
  mostPositional : Int
  exponentDigits : Nat

namespace Binary64

/-- Numbers from 10^-4 up to 10^16 are written with a point, others with an exponent of at
least two digits. -/
def layout : DecimalLayout := ⟨-4, 16, 2⟩

/-- A positive number as a quotient, together with the ends of the interval of quotients that
round to it, all over one denominator. -/
structure Neighbourhood where
  value : Nat
  lower : Nat
  upper : Nat
  den : Nat
  /-- Whether the ends themselves round to the number. -/
  closed : Bool

/-- The interval around `m * 2 ^ e`: half a step up, and half a step down, which is half as
wide below a power of two. -/
def neighbourhood (m : Nat) (e : Int) : Neighbourhood :=
  let narrow : Bool := m == Nat.pow 2 52 && decide (-1074 < e)
  let value := 4 * m
  let lower := if narrow then 4 * m - 1 else 4 * m - 2
  let upper := 4 * m + 2
  match e - 2 with
  | .ofNat k => ⟨value * Nat.pow 2 k, lower * Nat.pow 2 k, upper * Nat.pow 2 k, 1, m % 2 == 0⟩
  | .negSucc k => ⟨value, lower, upper, Nat.pow 2 (k + 1), m % 2 == 0⟩

def decimalOrder (num den : Nat) : Int :=
  if den ≤ num then (decimalLength (num / den) : Int) - 1
  else
    let above := (den + num - 1) / num
    0 - (decimalLength (above - 1) : Int)

/-- Whether a point of the grid of step `10 ^ k` rounds to the number. -/
def Neighbourhood.holds (n : Neighbourhood) (point : Nat) (k : Int) : Bool :=
  let (p, scale) : Nat × Nat :=
    match k with
    | .ofNat k => (point * Nat.pow 10 k * n.den, 1)
    | .negSucc k => (point * n.den, Nat.pow 10 (k + 1))
  if n.closed then n.lower * scale ≤ p && p ≤ n.upper * scale
  else n.lower * scale < p && p < n.upper * scale

/-- The number's neighbours on the grid of step `10 ^ k`: the point below or at it, and the
order of twice the number against the sum of both. -/
def Neighbourhood.onGrid (n : Neighbourhood) (k : Int) : Nat × Ordering :=
  let (num, den) : Nat × Nat :=
    match k with
    | .ofNat k => (n.value, n.den * Nat.pow 10 k)
    | .negSucc k => (n.value * Nat.pow 10 (k + 1), n.den)
  (num / den, compare (2 * (num % den)) den)

/-- The better of the two neighbours on one grid, if one rounds to the number. -/
def Neighbourhood.hit? (n : Neighbourhood) (k : Int) : Option Decimal :=
  let (below, side) := n.onGrid k
  let above := below + 1
  match n.holds below k, n.holds above k with
  | true, true =>
    match side with
    | .lt => some ⟨below, k⟩
    | .gt => some ⟨above, k⟩
    | .eq => some ⟨if below % 2 = 0 then below else above, k⟩
  | true, false => some ⟨below, k⟩
  | false, true => some ⟨above, k⟩
  | false, false => none

/-- The shortest decimal of a positive number: grids of 1, 2, … 17 digits are tried in turn. -/
def shortest (m : Nat) (e : Int) : Decimal :=
  let n := neighbourhood m e
  let order := decimalOrder n.value n.den
  ((List.range 17).findSome? fun (i : Nat) => n.hit? (order - (i : Int))).getD ⟨m, e⟩

end Binary64

def Decimal.trim : Nat → Decimal → Decimal
  | 0, d => d
  | fuel + 1, d =>
    if d.digits % 10 == 0 && d.digits != 0 then Decimal.trim fuel ⟨d.digits / 10, d.exponent + 1⟩
    else d

/-- The text of a positive decimal under a layout; a point has at least one digit after it. -/
def Decimal.text (layout : DecimalLayout) (d : Decimal) : List Char :=
  let digits := Nat.toDigits 10 d.digits
  /- The number is `0.digits * 10 ^ point`. -/
  let point : Int := (digits.length : Int) + d.exponent
  if layout.leastPositional < point && point ≤ layout.mostPositional then
    if point ≤ 0 then
      ['0', '.'] ++ List.replicate (-point).toNat '0' ++ digits
    else
      let whole := digits.take point.toNat
      let fraction := digits.drop point.toNat
      whole ++ List.replicate (point.toNat - whole.length) '0' ++ ['.'] ++
        (if fraction.isEmpty then ['0'] else fraction)
  else
    let exponent := point - 1
    let written := Nat.toDigits 10 exponent.natAbs
    digits.take 1 ++ (if digits.length ≤ 1 then [] else '.' :: digits.drop 1) ++
      ['e', if exponent < 0 then '-' else '+'] ++
      List.replicate (layout.exponentDigits - written.length) '0' ++ written

namespace Binary64

def text : Binary64 → String
  | .nan => "nan"
  | .infinity negative => if negative then "-inf" else "inf"
  | .finite negative m e =>
    let body := if m = 0 then ['0', '.', '0'] else (shortest m e).trim 20 |>.text layout
    String.ofList (if negative then '-' :: body else body)

end Binary64

end PathRouting
