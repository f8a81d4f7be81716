import SampleMethods.Script.SyntaxError
import SampleMethods.Script.Tree

/-!
# Assignment targets

An assignment and the parameters of an arrow function are read as expressions
first. When the sign behind them shows what they are, array and object
literals are turned into the patterns that they spell. What cannot stand in a
pattern is passed over, together with everything in it, except that methods
and accessors refuse the whole script.
-/

set_option autoImplicit false

namespace SampleMethods.Script

namespace Label

/-- Whether an expression stays as it is where a pattern is wanted. -/
def staysInPattern : Label → Bool
  | member _ | computedMember | call | construct _ | literal _ | reference _ | function .. |
    classValue | parentheses | template _ | typeAssertion "as" | arrayPattern | objectPattern |
    hole => true
  | _ => false

/-- Whether the expression is a link of an optional chain. -/
def isOptionalChain : Label → Bool
  | optionalMember _ | optionalComputedMember | optionalCall => true
  | _ => false

/-- Whether a value can be assigned to the expression. -/
def isAssignable : Label → Bool
  | reference _ | member _ | computedMember | parentheses | typeAssertion _ | nonNull |
    instantiation | arrayPattern | objectPattern | invalid => true
  | label => label.isOptionalChain

end Label

namespace Node

/-- The node that stands where an expression was passed over. -/
def passedOver (span : Span) : Node :=
  .mk .invalid span []

mutual

/-- The element of a pattern that an expression spells. -/
def asPatternElement : Node → Except SyntaxError Node
  | .mk .arrayLiteral span elements => do
    return .mk .arrayPattern span (← asPatternElements elements)
  | .mk .objectLiteral span properties => do
    return .mk .objectPattern span (← asPatternProperties properties)
  | .mk (.assignment "=") span [target, value] => do
    return .mk .defaultPattern span [← asPatternElement target, value]
  | .mk label span parts =>
    if label.staysInPattern then return .mk label span parts
    else return passedOver span

/-- The elements of a pattern that the elements of an array spell. A spread element stands
for the rest only at the end. -/
def asPatternElements : List Node → Except SyntaxError (List Node)
  | [] => return []
  | .mk .spread span [inner] :: [] => do
    return [.mk .restPattern span [← asPatternElement inner]]
  | .mk .spread _ _ :: rest => asPatternElements rest
  | element :: rest => do
    return (← asPatternElement element) :: (← asPatternElements rest)

/-- The properties of a pattern that the properties of an object spell. -/
def asPatternProperties : List Node → Except SyntaxError (List Node)
  | [] => return []
  | property :: rest => do
    return (← asPatternProperty property) :: (← asPatternProperties rest)

/-- The property of a pattern that a property of an object spells. -/
def asPatternProperty : Node → Except SyntaxError Node
  | .mk .property span [key, value] => do
    return .mk .property span [key, ← asPatternElement value]
  | .mk (.shorthand name) span parts => return .mk (.shorthand name) span parts
  | .mk .spread span [inner] => do
    return .mk .restPattern span [← asPatternElement inner]
  | _ => throw .notAPattern

end

/-- The target of a loop over elements or keys that an expression spells. -/
def asLoopTarget (node : Node) : Except SyntaxError Node :=
  match node.label with
  | .arrayLiteral | .objectLiteral => node.asPatternElement
  | _ => return node

/-- The target of an assignment that an expression spells. Only a plain assignment takes
a pattern. -/
def asAssignmentTarget (node : Node) (plain : Bool) : Except SyntaxError Node := do
  let target ← if plain then node.asLoopTarget else pure node
  if target.label.isAssignable then
    return target
  else
    throw .invalidAssignmentTarget

/-- The parameter that an expression in parentheses spells. -/
def asParameter (node : Node) : Except SyntaxError Node :=
  match node with
  | .mk .spread span [inner] => do return .mk .restPattern span [← inner.asPatternElement]
  | node => node.asPatternElement

/-- Whether the node is an arrow function. -/
def isArrow (node : Node) : Bool :=
  match node.label with
  | .arrow _ => true
  | _ => false

end Node

end SampleMethods.Script
