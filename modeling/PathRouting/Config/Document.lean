import PathRouting.Value.Mapping
import PathRouting.Yaml.Error

/-!
# Documents

A document can show one mapping in several places. What is set inside of it later is then seen in
all of them, so such a mapping stands in a table, and its places refer to it by its number.
-/
namespace PathRouting.Config

inductive Item where
  | plain (value : Value)
  | list (items : List Item)
  | mapping (entries : List (Value × Item))
  | shared (number : Nat)
deriving Inhabited

/-- The entries of the shared mappings, by their numbers. -/
abbrev SharedTable := List (Mapping Item)

structure Document where
  root : Item
  shared : SharedTable

/-- A reader of documents in the format YAML, which is kept outside of the project. -/
class YamlReader where
  readYaml : String → Except Yaml.Error Document

namespace Item

mutual

def ofValue : Value → Item
  | .mapping es => .mapping (ofEntries es)
  | v => .plain v

def ofEntries : List (Value × Value) → Mapping Item
  | [] => []
  | (k, v) :: rest => (k, ofValue v) :: ofEntries rest

end

mutual

/-- The value of an item, for the entries of the shared mappings. -/
def value (cell : Nat → Mapping Value) : Item → Value
  | .plain v => v
  | .list items => .list (values cell items)
  | .mapping es => .mapping (entryValues cell es)
  | .shared n => .mapping (cell n)

def values (cell : Nat → Mapping Value) : List Item → List Value
  | [] => []
  | x :: rest => value cell x :: values cell rest

def entryValues (cell : Nat → Mapping Value) : List (Value × Item) → Mapping Value
  | [] => []
  | (k, x) :: rest => (k, value cell x) :: entryValues cell rest

end

mutual

/-- The value of an item in which nothing is shared. -/
def tree? : Item → Option Value
  | .plain v => if v.isMapping then none else some v
  | .list items => (trees? items).map .list
  | .mapping es => (entryTrees? es).map .mapping
  | .shared _ => none

def trees? : List Item → Option (List Value)
  | [] => some []
  | x :: rest => (tree? x).bind fun v => (trees? rest).map fun vs => v :: vs

def entryTrees? : List (Value × Item) → Option (Mapping Value)
  | [] => some []
  | (k, x) :: rest => (tree? x).bind fun v => (entryTrees? rest).map fun es => (k, v) :: es

end

mutual

/-- The item with the numbers of shared mappings raised. -/
def raise (offset : Nat) : Item → Item
  | .plain v => .plain v
  | .list items => .list (raiseAll offset items)
  | .mapping es => .mapping (raiseEntries offset es)
  | .shared n => .shared (offset + n)

def raiseAll (offset : Nat) : List Item → List Item
  | [] => []
  | x :: rest => raise offset x :: raiseAll offset rest

def raiseEntries (offset : Nat) : List (Value × Item) → Mapping Item
  | [] => []
  | (k, x) :: rest => (k, raise offset x) :: raiseEntries offset rest

end

end Item

def SharedTable.entries (shared : SharedTable) (number : Nat) : Mapping Item :=
  shared.getD number []

/-- The entries of a shared mapping as values, down to a depth of shared mappings in each other.
Only in one that lies inside itself they end there. -/
def SharedTable.values (shared : SharedTable) : Nat → Nat → Mapping Value
  | 0, _ => []
  | depth + 1, number =>
    Item.entryValues (shared.values depth) (shared.entries number)

namespace Document

def ofValue (v : Value) : Document := ⟨.ofValue v, []⟩

def entries? (d : Document) : Option (Mapping Item) :=
  match d.root with
  | .mapping es => some es
  | .shared n => some (d.shared.entries n)
  | _ => none

def truthy (d : Document) : Bool :=
  match d.root with
  | .plain v => v.truthy
  | .list items => !items.isEmpty
  | .mapping es => !es.isEmpty
  | .shared n => !(d.shared.entries n).isEmpty

end Document

end PathRouting.Config
