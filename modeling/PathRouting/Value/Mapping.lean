import PathRouting.Value.Key

/-!
# Mappings in order

A mapping is a list of entries with distinct keys. Setting a key that is there keeps its place
and replaces its value; setting a new one puts it last.
-/
namespace PathRouting

/-- An ordered mapping from keys to values of one type. -/
abbrev Mapping (α : Type) := List (Value × α)

namespace Mapping

variable {α β : Type}

def get? (m : Mapping α) (key : Value) : Option α :=
  match m with
  | [] => none
  | (k, v) :: rest => if k.sameKey key then some v else get? rest key

def named? (m : Mapping α) (name : String) : Option α := get? m (.str name)

def contains (m : Mapping α) (key : Value) : Bool := (get? m key).isSome

def insert (m : Mapping α) (key : Value) (value : α) : Mapping α :=
  match m with
  | [] => [(key, value)]
  | (k, v) :: rest => if k.sameKey key then (k, value) :: rest else (k, v) :: insert rest key value

def insertNew (m : Mapping α) (key : Value) (value : α) : Mapping α :=
  if contains m key then m else m ++ [(key, value)]

def erase (m : Mapping α) (key : Value) : Mapping α :=
  match m with
  | [] => []
  | (k, v) :: rest => if k.sameKey key then rest else (k, v) :: erase rest key

def mapValues (f : α → β) (m : Mapping α) : Mapping β := m.map fun (k, v) => (k, f v)

def ofEntries (entries : List (Value × α)) : Mapping α :=
  entries.foldl (fun m (k, v) => insert m k v) []

@[simp] theorem get?_nil (key : Value) : get? ([] : Mapping α) key = none := rfl

theorem get?_cons (k : Value) (v : α) (rest : Mapping α) (key : Value) :
    get? ((k, v) :: rest) key = if k.sameKey key then some v else get? rest key := rfl

end Mapping

end PathRouting
