import PathRouting.Yaml.Tag

/-!
# Tokens of YAML
-/
namespace PathRouting.Yaml

inductive TokenKind where
  | streamEnd
  | documentStart
  | documentEnd
  | blockSequenceStart
  | blockMappingStart
  | blockEnd
  | flowSequenceStart
  | flowSequenceEnd
  | flowMappingStart
  | flowMappingEnd
  | blockEntry
  | flowEntry
  | key
  | value
  | alias (name : String)
  | anchor (name : String)
  | tag (tag : WrittenTag)
  | directive (directive : Directive)
  | scalar (plain : Bool) (text : String)
deriving DecidableEq

def TokenKind.name : TokenKind → String
  | .streamEnd => "<stream end>"
  | .documentStart => "<document start>"
  | .documentEnd => "<document end>"
  | .blockSequenceStart => "<block sequence start>"
  | .blockMappingStart => "<block mapping start>"
  | .blockEnd => "<block end>"
  | .flowSequenceStart => "'['"
  | .flowSequenceEnd => "']'"
  | .flowMappingStart => "'\x7b'"
  | .flowMappingEnd => "'\x7d'"
  | .blockEntry => "'-'"
  | .flowEntry => "','"
  | .key => "'?'"
  | .value => "':'"
  | .alias _ => "<alias>"
  | .anchor _ => "<anchor>"
  | .tag _ => "<tag>"
  | .directive _ => "<directive>"
  | .scalar _ _ => "<scalar>"

structure Token where
  kind : TokenKind
  place : Place
deriving DecidableEq

end PathRouting.Yaml
