import SampleMethods.Script.Grammar.Basic

/-!
# Binding patterns and parameters

The names that a declaration binds, alone or taken apart by a pattern, the
names of properties, the words that may stand before a member or parameter, and
the parameter lists of functions.
-/

set_option autoImplicit false

namespace SampleMethods.Script

namespace Grammar

open Script.Parser

/-! ## Names of properties -/

/-- Reads the name of a property: a word, a literal, or an expression in brackets. -/
def propertyName (grammar : Grammar) : Parser Node := do
  let start ← here
  match ← token with
  | .word text _ =>
    advance
    finish (.key text) start []
  | .string text | .number text | .bigInt text =>
    advance
    finish (.literalKey text) start []
  | .sign .leftBracket =>
    advance
    let first ← allowingIn true grammar.assignment
    let others ← collect do
      if ← hasTypes <&&> eat .comma then
        return some (← allowingIn true grammar.assignment)
      return none
    expect .rightBracket
    finish .computedKey start (first :: others)
  | .bad error => throw error
  | _ => unexpected "identifier, string literal, numeric literal or [ for the computed key"

/-! ## Type annotations -/

/-- Reads a colon and the type after it, if the colon comes next. -/
def typeAnnotation (grammar : Grammar) : Parser (List Node) := do
  if ← hasTypes <&&> eat .colon then
    return [← grammar.type]
  return []

/-! ## Modifiers -/

/-- Whether the next token may be what a modifier in front of it modifies. -/
def isAtModified : Parser Bool := do
  if ← atNewline then
    return false
  match ← token with
  | .word .. | .string _ | .number _ | .bigInt _ => return true
  | .sign sign => return [.leftBracket, .leftBrace, .times, .ellipsis, .hash].contains sign
  | _ => return false

/-- Reads one of the allowed modifiers, if it comes next and modifies something. -/
def modifier (allowed : List String) (beforeStaticBlock : Bool) : Parser (Option String) := do
  unless ← hasTypes do
    return none
  match ← token with
  | .word text true =>
    let lexical := Identifier.isIdentifierToken text || text == "in" || text == "const"
    unless lexical && allowed.contains text do
      return none
    if beforeStaticBlock && text == "static" && (← peek).isSign .leftBrace then
      return none
    attempt do
      advance
      return if ← isAtModified then some text else none
  | _ => return none

/-- The modifiers that a parameter may carry. -/
def parameterModifiers : List String :=
  ["public", "protected", "private", "readonly"]

/-- Goes over a modifier of a parameter. -/
def skipParameterModifier : Parser Unit := do
  if (← hasTypes) && (← isAtAnyWord parameterModifiers) then
    let behind ← peek
    if behind.isAnyWord || behind.isSign .leftBrace || behind.isSign .leftBracket then
      let _ ← modifier parameterModifiers false

/-! ## Patterns -/

/-- Reads a pattern and the default value that may follow it. -/
def bindingElement (grammar : Grammar) : Parser Node := do
  let start ← here
  let pattern ← grammar.pattern false
  if ← eat .assign then
    let value ← allowingIn true grammar.assignment
    finish .defaultPattern start [pattern, value]
  else
    return pattern

/-- Goes over the mark of an optional pattern, which only a declaration of something
that is defined elsewhere may carry. -/
def skipOptionalMark : Parser Unit := do
  if (← read).inDeclare then
    let _ ← eat .question

/-- Reads a property of an object pattern. -/
def patternProperty (grammar : Grammar) : Parser Node := do
  let start ← here
  if ← eat .ellipsis then
    let rest ← grammar.pattern false
    finish .restPattern start [rest]
  else
    let name ← grammar.propertyName
    if ← eat .colon then
      let value ← grammar.bindingElement
      finish .property start [name, value]
    else
      match name.label with
      | .key text =>
        if ← eat .assign then
          let value ← allowingIn true grammar.assignment
          finish (.shorthand text) start [value]
        else
          finish (.shorthand text) start []
      | _ => unexpected "an identifier"

/-- Whether a rest property binds a plain name. -/
def restBindsName : Node → Bool
  | .mk .restPattern _ [.mk (.binding _) _ _] => true
  | .mk .restPattern _ _ => false
  | _ => true

/-- Reads a pattern in braces. A rest property at its end binds a plain name. -/
def objectPattern (grammar : Grammar) : Parser Node := do
  let start ← here
  expect .leftBrace
  let properties ← collect do
    if ← eat .rightBrace then
      return none
    let property ← grammar.patternProperty
    unless ← isAt .rightBrace do
      expect .comma
    return some property
  unless (properties.getLast?.map restBindsName).getD true do
    throw .restWithoutIdentifier
  skipOptionalMark
  finish .objectPattern start properties

/-- Reads a pattern in brackets. -/
def arrayPattern (grammar : Grammar) : Parser Node := do
  let start ← here
  expect .leftBracket
  let elements ← collect do
    if (← isAtEof) || (← isAt .rightBracket) then
      return none
    let elementStart ← here
    if ← eat .comma then
      return some (← finish .hole elementStart [])
    let element ←
      if ← eat .ellipsis then
        let rest ← grammar.pattern false
        finish .restPattern elementStart [rest]
      else
        grammar.bindingElement
    unless ← isAt .rightBracket do
      expect .comma
    return some element
  expect .rightBracket
  skipOptionalMark
  finish .arrayPattern start elements

/-- Reads a name or a pattern in braces or brackets. -/
def bindingPattern (grammar : Grammar) (refusesLet : Bool) : Parser Node := do
  let start ← here
  match ← token with
  | .word .. =>
    let name ← bindingName refusesLet
    finish (.binding name) start []
  | .sign .leftBracket => grammar.arrayPattern
  | .sign .leftBrace => grammar.objectPattern
  | .bad error => throw error
  | _ => unexpected "yield, an identifier, [ or \x7b"

/-! ## Parameters -/

/-- Reads a parameter other than a rest parameter. -/
def parameter (grammar : Grammar) : Parser Node := do
  let start ← here
  skipParameterModifier
  let element ← grammar.bindingElement
  let annotation ←
    if ← hasTypes then
      if ← eat .question then
        match element.label with
        | .binding _ | .arrayPattern | .objectPattern => pure ()
        | _ =>
          unless (← read).inDeclare do
            throw .optionalPattern
      grammar.typeAnnotation
    else
      pure []
  if ← eat .assign then
    let value ← grammar.assignment
    finish .defaultPattern start (element :: annotation ++ [value])
  else if annotation.isEmpty then
    return element
  else
    return .mk element.label ⟨start, (← get).lastStop⟩ (element.parts ++ annotation)

/-- Reads a rest parameter, whose mark has been read. -/
def restParameter (grammar : Grammar) (start : Nat) : Parser Node := do
  let pattern ← grammar.pattern false
  let value ←
    if ← eat .assign then
      pure [← grammar.assignment]
    else
      pure []
  let annotation ← grammar.typeAnnotation
  if ← hasTypes then
    let _ ← eat .question
  finish .restPattern start (pattern :: value ++ annotation)

/-- Reads parameters up to the closing parenthesis, which stays. -/
def parameters (grammar : Grammar) (one : Parser Node) : Parser (List Node) :=
  collect do
    if (← isAtEof) || (← isAt .rightParen) then
      return none
    let start ← here
    let parameter ←
      if ← eat .ellipsis then
        grammar.restParameter start
      else
        one
    unless ← isAt .rightParen do
      expect .comma
    return some parameter

/-- Reads the parameters of a function. -/
def formalParameters (grammar : Grammar) : Parser (List Node) :=
  grammar.parameters grammar.parameter

/-- Reads a parameter of a constructor, which may declare a property as well. -/
def constructorParameter (grammar : Grammar) : Parser Node := do
  let access ← modifier ["public", "protected", "private", "in", "out"] false
  let override ← modifier ["override"] false
  let readonly ← modifier ["readonly"] false
  let parameter ← grammar.parameter
  let declaresProperty :=
    (access.map fun word => word != "in" && word != "out").getD false || override.isSome ||
      readonly.isSome
  match declaresProperty, parameter.label with
  | true, .binding _ | true, .defaultPattern => return parameter
  | true, _ => throw .parameterProperty
  | false, _ => return parameter

end Grammar

end SampleMethods.Script
