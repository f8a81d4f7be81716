import SampleMethods.Script.Grammar.Markup
import SampleMethods.Script.Grammar.Primary

/-!
# Calls and members

What may follow a primary expression: arguments, members, template literals,
type arguments, and the chains that stop at a missing value. Calls are made
step by step from left to right, so a call is the first part of what is done
with its result.
-/

set_option autoImplicit false

namespace SampleMethods.Script

namespace Node

/-- The node without the assertions around it that it is not missing. -/
def withoutNonNull : Node → Node
  | .mk .nonNull _ [inner] => inner.withoutNonNull
  | node => node

/-- Whether the node, apart from assertions, is a link of an optional chain. -/
def isOptionalChain (node : Node) : Bool :=
  node.withoutNonNull.label.isOptionalChain

end Node

namespace Grammar

open Script.Parser

/-! ## Arguments -/

/-- Reads the arguments of a call. -/
def arguments (grammar : Grammar) : Parser (List Node) :=
  within (fun context => { context.insideBrackets with allowIn := true }) do
    expect .leftParen
    let arguments ← delimited
      (do return (← isAtEof) || (← isAt .rightParen))
      grammar.spreadable
    expect .rightParen
    return arguments

/-- Reads type arguments that are no comparison, behind a primary expression. -/
def instantiatingArguments? (grammar : Grammar) : Parser (Option (List Node)) := do
  unless (← hasTypes) && (← isAtTypeArguments) do
    return none
  attempt do
    let arguments ← grammar.typeArguments
    if (← isAtAny [.plus, .minus, .leftParen, .backquote, .less]) || (← isAtGreater) then
      return none
    let operatorFollows := match ← token with
      | .sign sign => sign.isBinary
      | _ => false
    if (← atNewline) || operatorFollows || !(← startsExpression) then
      return some arguments
    return none

/-! ## One step -/

/-- Properties of the parent may be named only inside of methods. -/
def checkSuper (object : Node) : Parser Unit := do
  if object.label == .super && !(← read).allowSuper then
    throw .invalidSuper

/-- What is imported has to be called at once. -/
def checkImport (object : Node) : Parser Unit := do
  if object.label == .importTarget then
    throw .invalidImport

/-- The call of the object. Inside an optional chain it is a link of the chain. -/
def callOf (object : Node) (optional : Bool) (arguments : List Node) : Parser Node :=
  if optional || object.isOptionalChain then
    extend .optionalCall object arguments
  else
    extend .call object arguments

/-- Reads a computed member behind its opening bracket. -/
def computedMember (grammar : Grammar) (object : Node) (optional : Bool) : Parser Node := do
  let index ← within (fun context => { context.insideBrackets with allowIn := true })
    grammar.expression
  expect .rightBracket
  checkImport object
  checkSuper object
  if optional || object.isOptionalChain then
    extend .optionalComputedMember object [index]
  else
    extend .computedMember object [index]

/-- Reads a named member behind the point. -/
def namedMemberOf (object : Node) (optional : Bool) : Parser Node := do
  let name ← memberName
  let text := match name.label with
    | .key text => text
    | .privateName text => "#" ++ text
    | _ => ""
  checkImport object
  checkSuper object
  if optional || object.isOptionalChain then
    extend (.optionalMember text) object []
  else
    extend (.member text) object []

/-- Reads type arguments and what they belong to: a call, a template, or the expression
before them. -/
def typedSubscript? (grammar : Grammar) (object : Node) (noCall : Bool) :
    Parser (Option (Node × Bool)) :=
  attempt do
    if !noCall && object.label == .reference "async" then
      if let some arrow ← grammar.genericAsyncArrow? object.span.start then
        return some (arrow, true)
    let types ← grammar.typeArguments
    if !noCall && (← isAt .leftParen) then
      let arguments ← grammar.arguments
      return some (← callOf object false (types ++ arguments), true)
    if ← isAt .backquote then
      return some (← grammar.taggedTemplate object types, true)
    if (← isAt .assign) || (← isAtAnyWord ["as", "satisfies"]) then
      return some (← extend .instantiation object types, false)
    unexpected "( or \x60"

/-- Reads the type arguments of an optional call, if they come next. -/
def optionalCallTypes (grammar : Grammar) : Parser (List Node) := do
  if (← hasTypes) && (← isAtTypeArguments) then
    grammar.typeArguments
  else
    return []

/-- Reads one step behind an object. Says whether another step may follow. `noCall` says
that arguments do not belong to the object. -/
def subscript (grammar : Grammar) (noCall : Bool) (object : Node) : Parser (Node × Bool) := do
  let isPlain := object.label != .super && object.label != .importTarget
  if ← hasTypes then
    if !(← atNewline) && (← isAt .not) then
      unless isPlain do
        throw (.nonNullNotAllowed (if object.label == .super then "super" else "import"))
      advance
      return (← extend .nonNull object [], true)
    if isPlain && (← isAtTypeArguments) then
      if let some result ← grammar.typedSubscript? object noCall then
        return result
  let optional ← eat .optionalDot
  if optional then
    let types ← grammar.optionalCallTypes
    unless types.isEmpty do
      let arguments ← grammar.arguments
      return (← callOf object true (types ++ arguments), true)
  if ← eat .leftBracket then
    return (← grammar.computedMember object optional, true)
  if (optional || !noCall) && (← isAt .leftParen) then
    let arguments ← grammar.arguments
    return (← callOf object optional arguments, true)
  if optional then
    return (← namedMemberOf object true, true)
  if ← eat .dot then
    return (← namedMemberOf object false, true)
  if object.label == .importTarget then
    throw .invalidImport
  if object.label == .super then
    throw (if noCall then .invalidSuperCall else .invalidSuper)
  if ← isAt .backquote then
    return (← grammar.taggedTemplate object [], true)
  return (object, false)

/-- Reads every step behind an object. -/
def subscripts (grammar : Grammar) (noCall : Bool) (object : Node) : Parser Node :=
  iterate (grammar.subscript noCall) object

/-! ## Operands of `new` -/

/-- Reads `import` and the phase or property that may follow it. -/
def importExpression (grammar : Grammar) (noCall : Bool) : Parser Node := do
  let start ← here
  expectWord "import"
  if ← eat .dot then
    let name ← anyName
    if name == "meta" then
      let node ← finish (.metaProperty "import.meta") start []
      return ← grammar.subscripts noCall node
    unless name == "defer" || name == "source" do
      unexpected "meta"
  let target ← finish .importTarget start []
  grammar.subscripts noCall target

/-- Reads `super` and what follows it. -/
def superExpression (grammar : Grammar) (noCall : Bool) : Parser Node := do
  let start ← here
  expectWord "super"
  let target ← finish .super start []
  grammar.subscripts noCall target

/-- Whether what `new` makes comes from an optional chain. -/
def comesFromOptionalChain (callee : Node) : Bool :=
  callee.label.isOptionalChain ||
    match callee with
    | .mk (.member _) _ (object :: _) | .mk .computedMember _ (object :: _) =>
      object.label.isOptionalChain
    | _ => false

/-- Reads `new` and what it is applied to. -/
def construction (grammar : Grammar) : Parser Node := do
  let start ← here
  expectWord "new"
  if ← eat .dot then
    unless ← eatWord "target" do
      unexpected "target"
    let node ← finish (.metaProperty "new.target") start []
    return ← grammar.subscripts true node
  let callee ← grammar.newOperand
  if callee.isArrow then
    return callee
  if comesFromOptionalChain callee then
    throw .optionalChainAfterNew
  let types ←
    if (← hasTypes) && (← isAtTypeArguments) then
      let types ← attempt do
        let types ← grammar.typeArguments
        return if ← isAt .leftParen then some types else none
      pure (types.getD [])
    else
      pure []
  if ← isAt .leftParen then
    let arguments ← grammar.arguments
    let node ← finish (.construct true) start (callee :: types ++ arguments)
    grammar.subscripts true node
  else
    finish (.construct false) start [callee]

/-- Reads a member expression, which takes no arguments except those of `new`. -/
def newExpression (grammar : Grammar) : Parser Node := do
  if ← isAtWord "new" then
    grammar.construction
  else if ← isAtWord "super" then
    grammar.superExpression true
  else if ← isAtWord "import" then
    grammar.importExpression true
  else
    let primary ← grammar.primaryExpression
    if primary.isArrow then
      return primary
    match ← grammar.instantiatingArguments? with
    | some types =>
      let node ← extend .instantiation primary types
      grammar.subscripts true node
    | none => grammar.subscripts true primary

/-! ## Left-hand sides -/

/-- Reads an expression that may stand on the left of an assignment. -/
def leftHandSideExpression (grammar : Grammar) : Parser Node := do
  if (← hasMarkup) && (← isAt .less) && !(← peek).isSign .not then
    let node ← grammar.element
    let _ ← eatGreater
    return node
  if ← isAtWord "super" then
    return ← grammar.superExpression false
  if ← isAtWord "import" then
    return ← grammar.importExpression false
  let callee ← grammar.newExpression
  if callee.isArrow then
    return callee
  let types ←
    if (← hasTypes) && (← isAtTypeArguments) then
      attempt do
        let types ← grammar.typeArguments
        return if ← isAt .leftParen then some types else none
    else
      pure none
  if callee.label == .construct false then
    if types.isSome then
      expect .leftParen
    return callee
  if ← isAt .leftParen then
    let arguments ← grammar.arguments
    let node ← callOf callee false (types.getD [] ++ arguments)
    grammar.subscripts false node
  else
    return callee

end Grammar

end SampleMethods.Script
