import PathRouting.Number.Binary64

/-!
# JSON documents
-/
namespace PathRouting

/-- A JSON document. The members of an object keep their order. -/
inductive Json where
  | null
  | bool (b : Bool)
  | int (i : Int)
  | float (x : Binary64)
  | str (s : String)
  | arr (items : List Json)
  | obj (members : List (String × Json))
deriving Inhabited

namespace Json

/-- The members of an object after one more was read: a repeated name keeps its first place
and takes the last value. -/
def setMember (members : List (String × Json)) (name : String) (value : Json) :
    List (String × Json) :=
  match members with
  | [] => [(name, value)]
  | (n, v) :: rest =>
    if n = name then (n, value) :: rest else (n, v) :: setMember rest name value

end Json

end PathRouting
