/-!
# Suggestions for misspelt names

Two texts are as similar as the share of their characters in common blocks: the longest common
block is taken first, and then the same on both sides of it.
-/
namespace PathRouting.Command

def commonStart : List Char → List Char → Nat
  | a :: as, b :: bs => if a == b then commonStart as bs + 1 else 0
  | _, _ => 0

/-- A block that two texts have in common, by where it begins in each and its length. -/
structure Block where
  left : Nat
  right : Nat
  length : Nat

/-- The longest common block, the first one in the left text and then in the right one. -/
def longestBlock (as bs : List Char) : Block :=
  (List.range as.length).foldl (fun best i =>
    (List.range bs.length).foldl (fun best j =>
      let n := commonStart (as.drop i) (bs.drop j)
      if best.length < n then ⟨i, j, n⟩ else best) best) ⟨0, 0, 0⟩

/-- The number of characters in common blocks. The first argument bounds the number of blocks
that are taken one inside the other. -/
def commonLength : Nat → List Char → List Char → Nat
  | 0, _, _ => 0
  | fuel + 1, as, bs =>
    let b := longestBlock as bs
    if b.length = 0 then 0
    else
      commonLength fuel (as.take b.left) (bs.take b.right) + b.length +
        commonLength fuel (as.drop (b.left + b.length)) (bs.drop (b.right + b.length))

/-- How similar two texts are: twice the number of common characters, of so many in all. -/
structure Similarity where
  common : Nat
  total : Nat

def similarity (a b : String) : Similarity :=
  ⟨2 * commonLength (a.length + 1) a.toList b.toList, a.length + b.length⟩

/-- Texts that are at least so similar are worth suggesting: three fifths. -/
def Similarity.isClose (s : Similarity) : Bool := decide (3 * s.total ≤ 5 * s.common)

/-- The order of suggestions: the most similar first, then by name backwards. -/
def isBetter (a b : String × Similarity) : Bool :=
  let x := a.2.common * b.2.total
  let y := b.2.common * a.2.total
  decide (y < x) || (x == y && decide (b.1 ≤ a.1))

def suggestionLimit : Nat := 3

/-- The names worth suggesting for a word, in order of the alphabet. -/
def suggestions (word : String) (names : List String) : List String :=
  let close := (names.map fun name => (name, similarity name word)).filter fun e => e.2.isClose
  (((close.mergeSort isBetter).take suggestionLimit).map Prod.fst).mergeSort
    fun a b => decide (a ≤ b)

end PathRouting.Command
