import SampleMethods.Script.Grammar.Class
import SampleMethods.Script.Grammar.Operator

/-!
# Literals

Array and object literals, regular expressions and templates. A method of an
object is a node of its own kind, and so is an accessor: the function in it is
no value of a property.
-/

set_option autoImplicit false

namespace SampleMethods.Script

namespace Grammar

open Script.Parser

/-! ## Arrays -/

/-- Reads an expression that three points may stand before. -/
def spreadable (grammar : Grammar) : Parser Node := do
  let start ← here
  if ← eat .ellipsis then
    let inner ← grammar.assignment
    finish .spread start [inner]
  else
    grammar.assignment

/-- Reads an array literal. -/
def arrayLiteral (grammar : Grammar) : Parser Node :=
  within Context.insideBrackets do
    let start ← here
    expect .leftBracket
    let elements ← collect do
      if (← isAtEof) || (← isAt .rightBracket) then
        return none
      let elementStart ← here
      if ← eat .comma then
        return some (← finish .hole elementStart [])
      let element ← allowingIn true grammar.spreadable
      unless ← isAt .rightBracket do
        expect .comma
      return some element
    expect .rightBracket
    finish .arrayLiteral start elements

/-! ## Objects -/

/-- Whether, behind the name of a property, the next token can go on with the property. -/
def continuesProperty (name : Node) : Parser Bool := do
  match ← token with
  | .word .. | .string _ | .number _ => return true
  | .sign .rightBrace =>
    match name.label with
    | .key _ => return true
    | _ => return false
  | .sign sign =>
    return [.leftParen, .leftBracket, .colon, .comma, .question, .assign, .times, .less].contains
      sign
  | _ => return false

/-- Reads an accessor or an asynchronous method of an object, whose first word has been
read. -/
def wordMethod (grammar : Grammar) (start : Nat) (word : String) : Parser Node := do
  let generator ← if word == "async" then eat .times else pure false
  let name ← grammar.propertyName
  let function ← grammar.methodTail start (word == "async") generator
  let label : Label :=
    if word == "get" then .getter else if word == "set" then .setter else .method
  finish label start [name, function]

/-- Reads a property of an object whose name has been read and that has no value of its
own. -/
def shorthandProperty (grammar : Grammar) (start : Nat) (name : String) : Parser Node := do
  let _ ← eat .question
  if ← isAtAny [.assign, .comma, .rightBrace] then
    if ← eat .assign then
      let value ← allowingIn true grammar.assignment
      finish (.shorthand name) start [value]
    else
      finish (.shorthand name) start []
  else if ["get", "set", "async"].contains name then
    grammar.wordMethod start name
  else if ← hasTypes then
    unexpected ("... , *,  (, [, :, , ?, =, an identifier, public, protected, private, " ++
      "readonly, <.")
  else
    unexpected "... , *,  (, [, :, , ?, = or an identifier"

/-- Reads a property of an object. -/
def objectProperty (grammar : Grammar) : Parser Node := do
  let start ← here
  if ← eat .ellipsis then
    let inner ← allowingIn true grammar.assignment
    return ← finish .spread start [inner]
  if ← eat .times then
    let name ← grammar.propertyName
    let function ← grammar.methodTail start false true
    return ← finish .method start [name, function]
  skipParameterModifier
  let name ← grammar.propertyName
  if (← hasTypes) && !(← continuesProperty name) then
    let value ← finish .invalid start []
    return ← finish .property start [name, value]
  if ← eat .colon then
    let value ← allowingIn true grammar.assignment
    return ← finish .property start [name, value]
  if (← isAt .leftParen) || ((← hasTypes) && (← isAt .less)) then
    let function ← grammar.methodTail start false false
    return ← finish .method start [name, function]
  match name.label with
  | .key text => grammar.shorthandProperty start text
  | _ => unexpected "identifier"

/-- Reads an object literal. -/
def objectLiteral (grammar : Grammar) : Parser Node :=
  within Context.insideBrackets do
    let start ← here
    expect .leftBrace
    let properties ← collect do
      if ← eat .rightBrace then
        return none
      let property ← grammar.objectProperty
      unless ← isAt .rightBrace do
        expect .comma
      return some property
    finish .objectLiteral start properties

/-! ## Regular expressions and templates -/

/-- Reads a regular expression, whose first slash the cursor stands at. -/
def regularExpression : Parser Node := do
  let start ← here
  let cursor ← get
  reread (readRegExpBody false false cursor.here.tail (cursor.position + 1) [])
  match ← token with
  | .regExp raw =>
    advance
    finish (.literal raw) start []
  | _ => noExpression

/-- Reads a template without a tag. -/
def templateLiteral (grammar : Grammar) : Parser Node := do
  let start ← here
  let (pieces, holes) ← template false
    (within (fun context => { context.insideBrackets with allowIn := true }) grammar.expression)
  finish (.template pieces) start holes

/-- Reads a template behind its tag. -/
def taggedTemplate (grammar : Grammar) (tag : Node) (arguments : List Node) : Parser Node := do
  let (pieces, holes) ← template true
    (within (fun context => { context.insideBrackets with allowIn := true }) grammar.expression)
  extend (.taggedTemplate pieces) tag (arguments ++ holes)

end Grammar

end SampleMethods.Script
