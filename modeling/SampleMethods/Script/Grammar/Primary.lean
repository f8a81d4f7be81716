import SampleMethods.Script.Grammar.Parenthesis

/-!
# Primary expressions

The expressions that operators are applied to: names, literals, functions,
classes, templates, and everything in brackets.
-/

set_option autoImplicit false

namespace SampleMethods.Script

namespace Grammar

open Script.Parser

/-- Reads an arrow function whose only parameter stands without parentheses, from behind
that parameter on. -/
def bareArrow (grammar : Grammar) (start : Nat) (asynchronous : Bool) (name : String)
    (span : Span) : Parser Node := do
  expect .arrow
  grammar.arrowFunction start asynchronous [.mk (.binding name) span []]

/-- Reads what the word `async` starts when it is no plain name: a function, or an arrow
function with type parameters or in front of a parenthesis. -/
def asyncStart? (grammar : Grammar) (mayBeArrow : Bool) : Parser (Option Node) := do
  let start ← here
  let behind ← peek
  let sameLine := !(← newlineBehind)
  if behind.isWord "function" && sameLine then
    return some (← grammar.functionExpression)
  if mayBeArrow && (← hasTypes) && behind.isSign .less then
    if let some arrow ← attempt (do advance; grammar.genericAsyncArrow? start) then
      return some arrow
  if mayBeArrow && behind.isSign .leftParen && sameLine then
    advance
    return some (← grammar.parenthesized (some start) mayBeArrow)
  return none

/-- Reads a name that an expression refers to, or the arrow function that it starts. -/
def nameExpression (grammar : Grammar) (mayBeArrow : Bool) (name : String) : Parser Node := do
  let start ← here
  advance
  let reference ← finish (.reference name) start []
  if !mayBeArrow || (← atNewline) then
    return reference
  let ofLoop := (← isAtWord "of") && !(← peek).isSign .arrow
  if name == "async" && (← isAtReference) && !ofLoop then
    let parameterStart ← here
    let parameter ← bindingName false
    let binding ← finish (.binding parameter) parameterStart []
    if (← hasTypes) && parameter == "as" && !(← isAt .arrow) then
      let type ← grammar.type
      return ← finish (.typeAssertion "as") start [reference, type]
    return ← grammar.bareArrow start true parameter binding.span
  if ← isAt .arrow then
    grammar.bareArrow start false name reference.span
  else
    return reference

/-- Reads an expression that a word starts. -/
def wordExpression (grammar : Grammar) (mayBeArrow : Bool) (word : String) (plain : Bool) :
    Parser Node := do
  let start ← here
  if plain && word == "async" then
    if let some node ← grammar.asyncStart? mayBeArrow then
      return node
  if word == "this" then
    advance
    finish .this start []
  else if word == "function" then
    grammar.functionExpression
  else if word == "class" then
    grammar.classExpression
  else if ["null", "true", "false"].contains word then
    advance
    finish (.literal word) start []
  else if word == "let" || !Identifier.isReserved word then
    grammar.nameExpression mayBeArrow word
  else
    noExpression

/-- Reads a primary expression. -/
def primaryExpression (grammar : Grammar) : Parser Node := do
  let start ← here
  let mayBeArrow := (← get).arrowStart == some start
  match ← token with
  | .word text plain => grammar.wordExpression mayBeArrow text plain
  | .number text | .bigInt text | .string text =>
    advance
    finish (.literal text) start []
  | .sign .leftBracket => grammar.arrayLiteral
  | .sign .leftBrace => grammar.objectLiteral
  | .sign .divide | .sign .divideAssign => regularExpression
  | .sign .backquote => grammar.templateLiteral
  | .sign .leftParen => grammar.parenthesized none mayBeArrow
  | .sign .hash => privateName
  | _ => noExpression

end Grammar

end SampleMethods.Script
