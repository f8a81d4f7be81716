import SampleMethods.Script.Grammar.Type

/-!
# Functions

Parameters, result types and bodies of functions, blocks of statements, and the
functions that the keyword `function` introduces. Where types are allowed, a
function may end without a body.
-/

set_option autoImplicit false

namespace SampleMethods.Script

/-- The context inside a function. -/
def Context.insideFunction (asynchronous generator : Bool) (context : Context) : Context :=
  { context with inAsync := asynchronous, inGenerator := generator }

/-- The context inside the parameters of a function. -/
def Context.insideParameters (context : Context) : Context :=
  { context with inParameters := true, inFunction := false }

/-- The context inside the body of a function. -/
def Context.insideBody (context : Context) : Context :=
  { context with inParameters := false, inFunction := true }

/-- The context inside brackets of any kind: the colon that an outer conditional
expression waits for cannot come there. -/
def Context.insideBrackets (context : Context) : Context :=
  { context with awaitsColon := false }

namespace Grammar

open Script.Parser

/-! ## Blocks -/

/-- Reads statements up to the closing brace and goes over it. The end of the text closes
a block as well. -/
def blockStatements (grammar : Grammar) : Parser (List Node) := do
  let statements ← collect do
    if (← isAtEof) || (← isAt .rightBrace) then
      return none
    return some (← grammar.statement true)
  let _ ← eat .rightBrace
  return statements

/-- Reads statements in braces. -/
def block (grammar : Grammar) : Parser Node := do
  let start ← here
  expect .leftBrace
  let statements ← grammar.blockStatements
  finish .block start statements

/-! ## Parameters and bodies -/

/-- Reads the body of a function, or its end where there is none. -/
def functionBody (grammar : Grammar) : Parser (List Node) := do
  if ← hasTypes <&&> (not <$> isAt .leftBrace) <&&> eatStatementEnd then
    return []
  return [← within (fun context => { context.insideBody with allowIn := true }) grammar.block]

/-- Reads a function from its type parameters on. -/
def functionTail (grammar : Grammar) (start : Nat) (asynchronous generator : Bool)
    (parameters : Parser (List Node)) : Parser Node :=
  within (fun context => (context.insideFunction asynchronous generator).insideBrackets) do
    let headStart ← here
    let typeParameters ← grammar.optionalTypeParameters
    expect .leftParen
    let parameters ← within Context.insideParameters parameters
    expect .rightParen
    let result ← grammar.returnType
    let head ← finish .parameters headStart (typeParameters ++ parameters ++ result)
    let body ← grammar.functionBody
    finish (.function asynchronous generator) start (head :: body)

/-- Reads a method of a class or object from its type parameters on. -/
def methodTail (grammar : Grammar) (start : Nat) (asynchronous generator : Bool) : Parser Node :=
  within (fun context => { context with allowSuper := true })
    (grammar.functionTail start asynchronous generator grammar.formalParameters)

/-! ## Functions that the keyword introduces -/

/-- Goes over `async`, if it is the next token, and `function`. Says where the function
starts and whether it is asynchronous. -/
def functionKeyword : Parser (Nat × Bool) := do
  let start ← here
  let asynchronous ← eatWord "async"
  expectWord "function"
  return (start, asynchronous)

/-- Reads a function declaration. Only an exported default may be without a name. -/
def functionDeclaration (grammar : Grammar) (named : Bool) : Parser Node := do
  let (start, asynchronous) ← functionKeyword
  let generator ← eat .times
  let name ←
    if named then
      bindingName false
    else
      pure ((← optionalBindingName false).getD "")
  let function ←
    within (fun context => { context with allowSuper := false })
      (grammar.functionTail start asynchronous generator grammar.formalParameters)
  finish (.functionDeclaration name) start [function]

/-- Reads a function expression, which always has a body. -/
def functionExpression (grammar : Grammar) : Parser Node := do
  let (start, asynchronous) ← functionKeyword
  let generator ← eat .times
  let _ ← optionalBindingName false
  let function ←
    within (fun context => { context with allowSuper := false })
      (grammar.functionTail start asynchronous generator grammar.formalParameters)
  match function.parts with
  | [_, _] => return function
  | _ => unexpected "\x7b"

/-! ## Arrow functions -/

/-- Reads the body of an arrow function: a block or an expression. -/
def arrowBody (grammar : Grammar) (asynchronous : Bool) : Parser Node :=
  within (fun context => (context.insideFunction asynchronous false).insideBody) do
    if ← isAt .leftBrace then
      within Context.insideBrackets grammar.block
    else
      grammar.assignment

/-- Reads an arrow function whose parameters and arrow have been read. -/
def arrowFunction (grammar : Grammar) (start : Nat) (asynchronous : Bool)
    (parameters : List Node) : Parser Node := do
  let head ← finish .parameters start parameters
  let body ← grammar.arrowBody asynchronous
  finish (.arrow asynchronous) start [head, body]

/-- Reads an asynchronous arrow function from its type parameters on, if there is one. -/
def genericAsyncArrow? (grammar : Grammar) (start : Nat) : Parser (Option Node) := do
  unless ← isAt .less do
    return none
  let head ← attempt do
    let typeParameters ← grammar.typeParameters
    expect .leftParen
    let parameters ← grammar.formalParameters
    expect .rightParen
    let result ← grammar.returnType
    expect .arrow
    return some (typeParameters ++ parameters ++ result)
  match head with
  | none => return none
  | some parameters => return some (← grammar.arrowFunction start true parameters)

end Grammar

end SampleMethods.Script
