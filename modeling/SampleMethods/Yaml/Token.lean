import SampleMethods.Yaml.Error

/-!
# Tokens of YAML documents

A document is read as a row of tokens. Indentation has tokens of its own, for
the start and the end of block collections, and a key has one even where the
document writes none in front of it.
-/

set_option autoImplicit false

namespace SampleMethods.Yaml

/-- What a token is. -/
inductive Token.Kind where
  | streamStart
  | streamEnd
  | version (major minor : Nat)
  | tagDirective (handle address : String)
  | documentStart
  | documentEnd
  | blockSequenceStart
  | blockMappingStart
  | blockEnd
  | flowSequenceStart
  | flowSequenceEnd
  | flowMappingStart
  | flowMappingEnd
  | blockEntry
  | flowEntry
  | key
  | value
  | aliasOf (name : String)
  | anchor (name : String)
  | tag (handle suffix : String)
  /-- A scalar. One that is written without quotes and markers is plain. -/
  | scalar (text : String) (plain : Bool)
deriving DecidableEq, Repr

/-- A token and the places where it starts and ends. -/
structure Token where
  kind : Token.Kind
  start : Mark
  stop : Mark
deriving DecidableEq, Repr

end SampleMethods.Yaml
