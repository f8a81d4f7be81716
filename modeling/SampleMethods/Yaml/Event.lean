import SampleMethods.Yaml.Error

/-!
# Events of YAML documents

The nodes of a document in the order in which they are written. A collection has
an event where it starts and one where it ends.
-/

set_option autoImplicit false

namespace SampleMethods.Yaml

/-- The anchor and the tag of a node. -/
structure Properties where
  anchor : Option String
  tag : Option String
deriving DecidableEq, Repr

namespace Properties

/-- No anchor and no tag. -/
def none : Properties :=
  ⟨.none, .none⟩

/-- Whether there is an anchor or a tag. -/
def isEmpty (properties : Properties) : Bool :=
  properties.anchor.isNone && properties.tag.isNone

end Properties

/-- What an event is. -/
inductive Event.Kind where
  | aliasOf (name : String)
  /-- A scalar. One that is written without quotes and markers is plain. -/
  | scalar (properties : Properties) (text : String) (plain : Bool)
  | sequenceStart (properties : Properties)
  | sequenceEnd
  | mappingStart (properties : Properties)
  | mappingEnd
deriving DecidableEq, Repr

/-- An event and the place where it starts. -/
structure Event where
  kind : Event.Kind
  mark : Mark
deriving DecidableEq, Repr

end SampleMethods.Yaml
