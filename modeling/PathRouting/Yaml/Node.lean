/-!
# Nodes of YAML documents

Mappings are numbered, so one that is shown again by an alias can be told from another one.
-/
namespace PathRouting.Yaml

inductive Node where
  | scalar (tag : Option String) (plain : Bool) (text : String)
  | sequence (tag : Option String) (items : List Node)
  | mapping (number : Nat) (tag : Option String) (entries : List (Node × Node))
deriving Inhabited

namespace Node

def empty : Node := .scalar none true ""

def withTag (tag : Option String) : Node → Node
  | .scalar _ plain text => .scalar tag plain text
  | .sequence _ items => .sequence tag items
  | .mapping number _ entries => .mapping number tag entries

end Node

end PathRouting.Yaml
