import SampleMethods.Script.Grammar.Literal

/-!
# Parentheses

What an opening parenthesis starts is known only at the end: the parameters of
an arrow function, the arguments of a call of something called `async`, or an
expression in parentheses. The items are read as expressions, and where types
are allowed also as annotated parameters, and then taken as what they turn out
to be.
-/

set_option autoImplicit false

namespace SampleMethods.Script

/-- An item in parentheses: an expression, or a parameter with an annotation. -/
structure ParenthesisItem where
  node : Node
  isParameter : Bool
deriving Inhabited

namespace ParenthesisItem

/-- The item as a parameter of an arrow function. -/
def asParameter (item : ParenthesisItem) : Except SyntaxError Node :=
  if item.isParameter then return item.node else item.node.asParameter

/-- The item as an expression. -/
def asExpression (item : ParenthesisItem) : Except SyntaxError Node :=
  if item.isParameter then throw .notAnExpression else return item.node

/-- Whether the item is a plain name. -/
def isName (item : ParenthesisItem) : Bool :=
  match item.node.label with
  | .reference _ => true
  | .binding _ => true
  | _ => false

end ParenthesisItem

namespace Grammar

open Script.Parser

/-! ## Items -/

/-- Reads an item up to the marks that only parameters have. A name is read without the
conditional operator, which could be the mark of an optional parameter. -/
def itemExpression (grammar : Grammar) (start : Nat) : Parser Node := do
  let isName ←
    if ← hasTypes then
      pure ((← isAtReference) || ((← isAt .ellipsis) && Token.isReference (← peek)))
    else
      pure false
  unless isName do
    return ← grammar.spreadable
  if ← eat .ellipsis then
    let inner ← grammar.binaryExpression
    finish .spread start [inner]
  else
    let node ← grammar.binaryExpression
    grammar.assignmentFrom node

/-- Whether a mark of an optional parameter comes next, rather than the conditional
operator. -/
def isAtOptionalMark : Parser Bool := do
  let behind ← peek
  return [.comma, .colon, .rightParen, .assign].any behind.isSign

/-- Reads the annotation and default value of an item that is a parameter. -/
def annotatedItem (grammar : Grammar) (start : Nat) (node : Node) : Parser ParenthesisItem := do
  let target ← ofExcept node.asParameter
  let annotation ← grammar.typeAnnotation
  let annotated := .mk target.label target.span (target.parts ++ annotation)
  if ← eat .assign then
    let value ← grammar.assignment
    return ⟨← finish .defaultPattern start [annotated, value], true⟩
  else
    return ⟨annotated, true⟩

/-- Reads an item. -/
def parenthesisItem (grammar : Grammar) : Parser ParenthesisItem := do
  let start ← here
  modify fun cursor => { cursor with arrowStart := some start }
  skipParameterModifier
  let node ← grammar.itemExpression start
  unless ← hasTypes do
    return ⟨node, false⟩
  if ← isAt .question then
    if ← isAtOptionalMark then
      advance
      match node.label with
      | .reference _ | .spread => return ← grammar.annotatedItem start node
      | _ => throw .optionalPattern
    if node.label != .spread then
      advance
      let node ← grammar.conditionalFrom node
      if ← isAt .colon then
        return ← grammar.annotatedItem start node
      return ⟨node, false⟩
  if ← isAt .colon then
    grammar.annotatedItem start node
  else
    return ⟨node, false⟩

/-- Reads the arrow function that an item turns out to be the only parameter of. -/
def itemArrow (grammar : Grammar) (start : Nat) (item : ParenthesisItem) :
    Parser (List ParenthesisItem) := do
  if ← eat .arrow then
    if item.isName then
      let parameter ← ofExcept item.asParameter
      let arrow ← grammar.arrowFunction start false [parameter]
      return [item, ⟨arrow, false⟩]
  return [item]

/-- Reads the items in parentheses. -/
def parenthesisItems (grammar : Grammar) : Parser (List ParenthesisItem) :=
  within (fun context => { context.insideBrackets with allowIn := true }) do
    expect .leftParen
    let items ← collect do
      if ← isAt .rightParen then
        return none
      let start ← here
      let item ← grammar.parenthesisItem
      let items ← grammar.itemArrow start item
      unless ← isAt .rightParen do
        expect .comma
      return some items
    expect .rightParen
    return items.flatten

/-! ## Arrow functions -/

/-- Reads an arrow function in a conditional expression whose parameters have been read
and whose return type starts at the next token. It is none when a colon of the
conditional expression is missing behind it. -/
def arrowInConditional? (grammar : Grammar) (start : Nat) (asynchronous : Bool)
    (items : List ParenthesisItem) : Parser (Option Node) :=
  attempt do
    let result ← grammar.typeOrPredicateAfter .colon
    expect .arrow
    let parameters ← ofExcept (items.mapM ParenthesisItem.asParameter)
    let arrow ← grammar.arrowFunction start asynchronous (parameters ++ [result])
    if (← read).awaitsColon && !(← isAt .colon) then
      unexpected "fail"
    return some arrow

/-- Reads the return type of an arrow function whose parameters have been read, if there
is one. -/
def arrowResult? (grammar : Grammar) : Parser (Option Node) := do
  if (← read).awaitsColon || !(← hasTypes) || !(← isAt .colon) then
    return none
  attempt do
    let result ← grammar.typeOrPredicateAfter .colon
    return if ← isAt .arrow then some result else none

/-- Reads an arrow function from its arrow on. A binary operator behind a body in braces
goes on with the arrow function as an operand. -/
def arrowFromItems (grammar : Grammar) (start : Nat) (asynchronous mayBeArrow : Bool)
    (items : List ParenthesisItem) (result : Option Node) : Parser Node := do
  if ← atNewline then
    throw .lineBreakBeforeArrow
  unless mayBeArrow do
    throw .arrowNotAllowed
  expect .arrow
  let parameters ← ofExcept (items.mapM ParenthesisItem.asParameter)
  let arrow ← grammar.arrowFunction start asynchronous (parameters ++ result.toList)
  match arrow.parts, ← token with
  | [_, .mk .block _ _], .sign sign =>
    if sign.isBinary then
      grammar.binaryFrom (← get).limit arrow 0
    else
      return arrow
  | _, _ => return arrow

/-! ## Expressions in parentheses -/

/-- Takes the items as an expression in parentheses. -/
def parenthesesFromItems (start : Nat) (items : List Node) : Parser Node := do
  if items.any fun item => item.label == .spread then
    throw .spreadInParentheses
  match items with
  | [] => throw .emptyParentheses
  | [inner] => finish .parentheses start [inner]
  | first :: others =>
    let stop := (others.getLast?.getD first).span.stop
    finish .parentheses start [.mk .sequence ⟨first.span.start, stop⟩ items]

/-- Reads what an opening parenthesis starts. `asyncStart` is where a word `async` before
it starts, if there is one, and `mayBeArrow` says whether an arrow function may stand
here. -/
def parenthesized (grammar : Grammar) (asyncStart : Option Nat) (mayBeArrow : Bool) :
    Parser Node := do
  let start := asyncStart.getD (← here)
  let asynchronous := asyncStart.isSome
  let asyncEnd := (← get).lastStop
  let items ← grammar.parenthesisItems
  if (← hasTypes) && (← read).inConditional && (← isAt .colon) then
    if let some arrow ← grammar.arrowInConditional? start asynchronous items then
      return arrow
  let result ← grammar.arrowResult?
  if items.any (·.isParameter) || result.isSome || (← isAt .arrow) then
    return ← grammar.arrowFromItems start asynchronous mayBeArrow items result
  let expressions ← ofExcept (items.mapM ParenthesisItem.asExpression)
  if asynchronous then
    let callee := .mk (.reference "async") ⟨start, asyncEnd⟩ []
    finish .call start (callee :: expressions)
  else
    parenthesesFromItems start expressions

end Grammar

end SampleMethods.Script
