import PathRouting.Value.Text

/-!
# What can be wrong with a YAML text
-/
namespace PathRouting.Yaml

/-- What is wrong: the characters themselves, how they form tokens, how those form nodes, what
the aliases refer to, or the values of the nodes. -/
inductive Level where
  | characters
  | tokens
  | nodes
  | references
  | values
deriving DecidableEq

structure Place where
  line : Nat
  column : Nat
deriving DecidableEq

structure Error where
  level : Level
  problem : String
  place : Option Place
deriving DecidableEq

def Error.message (e : Error) : String :=
  match e.place with
  | none => e.problem
  | some p =>
    e.problem ++ ", line " ++ Value.ofInt (p.line + 1) ++ ", column " ++ Value.ofInt (p.column + 1)

end PathRouting.Yaml
