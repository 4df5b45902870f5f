import PathRouting.Config.Document

/-!
# Trees of documents

Aliases show one mapping in several places of a tree, where it has the same number. In the
document it is shared.
-/
namespace PathRouting.Yaml

inductive Tree where
  | plain (value : Value)
  | list (items : List Tree)
  | mapping (number : Nat) (entries : List (Value × Tree))

namespace Tree

mutual

def mappings : Tree → List (Nat × Mapping Tree)
  | .plain _ => []
  | .list items => itemMappings items
  | .mapping n es => (n, es) :: entryMappings es

def itemMappings : List Tree → List (Nat × Mapping Tree)
  | [] => []
  | t :: rest => mappings t ++ itemMappings rest

def entryMappings : List (Value × Tree) → List (Nat × Mapping Tree)
  | [] => []
  | (_, t) :: rest => mappings t ++ entryMappings rest

end

mutual

/-- The item of a tree. The mappings with the given numbers are shared. -/
def item (shared : List Nat) : Tree → Config.Item
  | .plain v => .plain v
  | .list ts => .list (items shared ts)
  | .mapping n es =>
    match shared.idxOf? n with
    | some i => .shared i
    | none => .mapping (entries shared es)

def items (shared : List Nat) : List Tree → List Config.Item
  | [] => []
  | t :: rest => item shared t :: items shared rest

def entries (shared : List Nat) : List (Value × Tree) → Mapping Config.Item
  | [] => []
  | (k, t) :: rest => (k, item shared t) :: entries shared rest

end

/-- The document of a tree, in which a mapping is shared if it is shown more than once. -/
def document (t : Tree) : Config.Document :=
  let numbers := t.mappings.map Prod.fst
  let shared := (numbers.filter fun n => 1 < numbers.count n).eraseDups
  ⟨t.item shared, shared.map fun n => entries shared ((t.mappings.lookup n).getD [])⟩

end Tree

end PathRouting.Yaml
