import PathRouting.Json.Writer
import PathRouting.Value.Misuse

/-!
# Values as JSON documents

Lists and tuples become arrays and mappings become objects. Keys that are not text are written
as text; what JSON cannot write at all is written as the text of the value.
-/
namespace PathRouting.Json

def keyText : Value → Except Misuse String
  | .str s => .ok s
  | .int i => .ok (Value.ofInt i)
  | .bool b => .ok (if b then "true" else "false")
  | .null => .ok "null"
  | .float x => .ok (String.ofList (writeFloat x))
  | v => .error (.keyType v.typeName)

mutual

def ofValue : Value → Except Misuse Json
  | .null => .ok .null
  | .bool b => .ok (.bool b)
  | .int i => .ok (.int i)
  | .float x => .ok (.float x)
  | .str s => .ok (.str s)
  | .list xs => (ofValues xs).map .arr
  | .tuple xs => (ofValues xs).map .arr
  | .mapping es => (ofEntries es).map .obj
  | .set xs => .ok (.str (Value.set xs).text)
  | .frozenSet xs => .ok (.str (Value.frozenSet xs).text)
  | .record fs => .ok (.str (Value.record fs).text)

def ofValues : List Value → Except Misuse (List Json)
  | [] => .ok []
  | x :: xs => do
    let y ← ofValue x
    let ys ← ofValues xs
    return y :: ys

def ofEntries : List (Value × Value) → Except Misuse (List (String × Json))
  | [] => .ok []
  | (k, v) :: es => do
    let name ← keyText k
    let y ← ofValue v
    let ys ← ofEntries es
    return (name, y) :: ys

end

mutual

def toValue : Json → Value
  | .null => .null
  | .bool b => .bool b
  | .int i => .int i
  | .float x => .float x
  | .str s => .str s
  | .arr items => .list (toValues items)
  | .obj members => .mapping (toEntries members)

def toValues : List Json → List Value
  | [] => []
  | x :: xs => toValue x :: toValues xs

def toEntries : List (String × Json) → List (Value × Value)
  | [] => []
  | (name, x) :: rest => (.str name, toValue x) :: toEntries rest

end

def members : List (Value × Json) → Except Misuse (List (String × Json))
  | [] => .ok []
  | (k, x) :: rest => do
    let name ← keyText k
    let others ← members rest
    return (name, x) :: others

end PathRouting.Json
