import PathRouting.Number.Shortest
import PathRouting.Text.Quoted
import PathRouting.Value.Basic

/-!
# The text of a value

`Value.quoted` writes a value as it appears inside a container, `Value.text` as it appears in
a path: the two differ on text alone, which is quoted in the first and bare in the second.
-/
namespace PathRouting.Value

/-- The decimal text of an integer, however many digits it has. -/
def ofInt (i : Int) : String :=
  match i with
  | .ofNat n => String.ofList (Nat.toDigits 10 n)
  | .negSucc n => String.ofList ('-' :: Nat.toDigits 10 (n + 1))

mutual

def quoted : Value → String
  | .null => "None"
  | .bool b => if b then "True" else "False"
  | .int i => ofInt i
  | .float x => x.text
  | .str s => Text.quoted s
  | .list xs => "[" ++ ", ".intercalate (quotedItems xs) ++ "]"
  | .tuple xs =>
    if xs.length == 1 then "(" ++ String.join (quotedItems xs) ++ ",)"
    else "(" ++ ", ".intercalate (quotedItems xs) ++ ")"
  | .set xs =>
    if xs.isEmpty then "set()" else "\x7b" ++ ", ".intercalate (quotedItems xs) ++ "\x7d"
  | .frozenSet xs =>
    if xs.isEmpty then "frozenset()"
    else "frozenset(\x7b" ++ ", ".intercalate (quotedItems xs) ++ "\x7d)"
  | .mapping es => "\x7b" ++ ", ".intercalate (quotedEntries es) ++ "\x7d"
  | .record fs => "namespace(" ++ ", ".intercalate (quotedFields fs) ++ ")"

def quotedItems : List Value → List String
  | [] => []
  | x :: xs => quoted x :: quotedItems xs

def quotedEntries : List (Value × Value) → List String
  | [] => []
  | (k, v) :: es => (quoted k ++ ": " ++ quoted v) :: quotedEntries es

def quotedFields : List (String × Value) → List String
  | [] => []
  | (k, v) :: fs => (k ++ "=" ++ quoted v) :: quotedFields fs

end

def text : Value → String
  | .str s => s
  | v => v.quoted

@[simp] theorem text_str (s : String) : text (.str s) = s := rfl

end PathRouting.Value
