import PathRouting.Value.Mapping
import PathRouting.Value.Misuse

/-!
# Values as mappings
-/
namespace PathRouting.Value

def toEntry (position : Nat) (item : Value) : Except Misuse (Value × Value) :=
  match item.elements? with
  | some [k, v] =>
    match k.unhashable? with
    | some name => .error (.unhashable name)
    | none => .ok (k, v)
  | some xs => .error (.entryLength position xs.length)
  | none => .error (.notEntry position)

def toEntries (position : Nat) : List Value → Except Misuse (List (Value × Value))
  | [] => .ok []
  | x :: xs => do
    let entry ← toEntry position x
    let entries ← toEntries (position + 1) xs
    return entry :: entries

/-- A value as a mapping of its own: a mapping is taken as it is, and a collection if all its
items are pairs. A value that counts as false is an empty mapping. -/
def toMapping (v : Value) : Except Misuse (Mapping Value) :=
  if !v.truthy then .ok []
  else match v with
    | .mapping es => .ok es
    | v =>
      match v.elements? with
      | none => .error (.notIterable v.qualifiedTypeName)
      | some xs => (toEntries 0 xs).map Mapping.ofEntries

def entriesOrNone (v : Value) : Except Misuse (Mapping Value) :=
  if v.truthy then v.items else .ok []

@[simp] theorem entriesOrNone_mapping (es : Mapping Value) :
    (Value.mapping es).entriesOrNone = .ok es := by
  cases es <;> rfl

end PathRouting.Value
