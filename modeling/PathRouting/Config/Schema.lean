import PathRouting.Config.TypeHint
import PathRouting.Failure
import PathRouting.Fault.Kinds

/-!
# Schemas

A schema lists the fields of a record with their types. The settings are checked against it
field by field; what no field asks for is ignored.
-/
namespace PathRouting.Config

/-- A field of a record. A field without a default must be given. -/
structure Field where
  name : String
  type : TypeHint
  default : Option Value

def Field.value (f : Field) (settings : Mapping Value) : Except Failure Value :=
  match Mapping.named? settings f.name, f.default with
  | some v, _ =>
    match f.type.admits v with
    | .error m => .error (.misuse m)
    | .ok true => .ok v
    | .ok false =>
      .error (.fault (Fault.configFile (.str f.name)
        (.str ("expected " ++ f.type.name ++ ", got " ++ v.typeName)) []))
  | none, some v => .ok v
  | none, none => .error (.fault (Fault.configMissing (.str f.name) []))

/-- The record that settings give, field by field. The first field that is wrong counts. -/
def record (settings : Mapping Value) : List Field → Except Failure (List (String × Value))
  | [] => .ok []
  | f :: rest => do
    let v ← f.value settings
    let others ← record settings rest
    return (f.name, v) :: others

end PathRouting.Config
