import PathRouting.Pattern.Builder

/-!
# Normal forms of parameters

A mapping tells a builder which parameters of its pattern are supplied, and with which texts.
The normal form of a mapping tells just that.
-/
namespace PathRouting.Pattern

/-- The text that a parameter is supplied with, which is not the one that its default gives. -/
def suppliedText? (defaults : Mapping String) (params : Mapping Value) (name : String) :
    Option String :=
  (givenText? params name).filter fun text => Mapping.named? defaults name != some text

namespace Builder

/-- What is left of an entry: its text, if it names a parameter of the pattern and has a value
that says something else than the default. -/
def normalEntry? (b : Builder) : Value × Value → Option (Value × Value)
  | (_, .null) => none
  | (.str name, v) =>
    if b.pattern.names.contains name && Mapping.named? b.defaults name != some v.text then
      some (.str name, .str v.text)
    else none
  | _ => none

def normalize (b : Builder) (params : Mapping Value) : Mapping Value :=
  params.filterMap b.normalEntry?

end Builder

end PathRouting.Pattern
