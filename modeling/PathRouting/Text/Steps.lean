/-!
# Sets of code points by their steps

A set of code points that is a union of long runs is kept as the sorted list of the places
where membership changes, the first of which is where it becomes true.
-/
namespace PathRouting.Text

/-- Membership in the set whose membership changes exactly at the listed places. -/
def inSteps : List Nat → Nat → Bool
  | [], _ => false
  | s :: rest, n => if n < s then false else !inSteps rest n

end PathRouting.Text
