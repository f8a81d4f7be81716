import SampleMethods.Script.Grammar.Pattern
import SampleMethods.Script.Grammar.Template

/-!
# Types

Type annotations of the two dialects that have them. Types hold few
expressions, the computed names of members above all, but those are part of
the tree like any other.

A conditional type may not stand directly behind `extends` of another one.
That matters only for the constraint of an inferred type, whose reading asks
whether a question mark that follows belongs to an outer conditional type.
-/

set_option autoImplicit false

namespace SampleMethods.Script

namespace Grammar

open Script.Parser

/-! ## Lists -/

/-- Reads elements with commas between them up to a terminator, which stays. -/
def delimited (atEnd : Parser Bool) (element : Parser Node) : Parser (List Node) :=
  collect do
    if ← atEnd then
      return none
    let element ← element
    unless ← eat .comma do
      unless ← atEnd do
        expect .comma
    return some element

/-- Reads elements up to a closing brace, which stays. -/
def untilRightBrace (element : Parser Node) : Parser (List Node) :=
  collect do
    if ← isAt .rightBrace then
      return none
    return some (← element)

/-! ## Type arguments and type parameters -/

/-- Whether the next token opens type arguments. -/
def isAtTypeArguments : Parser Bool := do
  return (← isAt .less) || (← isAt .shiftLeft)

/-- Reads type arguments. -/
def typeArguments (grammar : Grammar) : Parser (List Node) := do
  unless ← eatLess do
    expect .less
  let arguments ← delimited isAtGreater grammar.type
  expectGreater
  return arguments

/-- The modifiers that a type parameter may carry. -/
def typeParameterModifiers : List String :=
  ["public", "private", "protected", "readonly", "abstract", "const", "override", "in", "out"]

/-- Reads a type parameter. -/
def typeParameter (grammar : Grammar) : Parser Node := do
  let start ← here
  let _ ← collect (modifier typeParameterModifiers false)
  let name ← anyName
  let constraint ←
    if ← eatWord "extends" then
      pure [← grammar.type]
    else
      pure []
  let default ←
    if ← eat .assign then
      pure [← grammar.type]
    else
      pure []
  finish (.type name) start (constraint ++ default)

/-- Reads type parameters. -/
def typeParameters (grammar : Grammar) : Parser (List Node) := do
  unless ← eat .less do
    unexpected "< (jsx tag start)"
  let parameters ← delimited isAtGreater grammar.typeParameter
  expectGreater
  return parameters

/-- Reads type parameters, if they come next. -/
def optionalTypeParameters (grammar : Grammar) : Parser (List Node) := do
  if (← hasTypes) && (← isAt .less) then
    grammar.typeParameters
  else
    return []

/-! ## Names -/

/-- Reads the part of a qualified name behind its first word. A point without a word
behind it ends the name. -/
def qualifiedNameTail : Parser Unit := do
  let _ ← collect do
    if ← eat .dot then
      if (← isAt .hash) || !(← isAtAnyName) then
        return none
      let _ ← anyName
      return some ()
    return none

/-- Reads a qualified name. -/
def qualifiedName : Parser Node := do
  let start ← here
  let name ← anyName
  qualifiedNameTail
  finish (.key name) start []

/-- Reads type arguments on the same line, if they come next. -/
def adjoiningTypeArguments (grammar : Grammar) : Parser (List Node) := do
  if !(← atNewline) && (← isAtTypeArguments) then
    grammar.typeArguments
  else
    return []

/-- Reads a named type. -/
def namedType (grammar : Grammar) : Parser Node := do
  let start ← here
  skipParameterModifier
  let _ ← qualifiedName
  let arguments ← grammar.adjoiningTypeArguments
  finish (.type "named") start arguments

/-- Reads a type that another module exports. -/
def importedType (grammar : Grammar) : Parser Node := do
  let start ← here
  expectWord "import"
  expect .leftParen
  match ← token with
  | .string _ => advance
  | .word .. | .number _ | .bigInt _ => advance
  | _ => unexpected "string literal"
  let options ←
    if ← eat .comma then
      if ← isAt .rightParen then
        pure []
      else
        let options ← grammar.assignment
        let _ ← eat .comma
        pure [options]
    else
      pure []
  expect .rightParen
  if ← eat .dot then
    let _ ← qualifiedName
  let arguments ← if ← isAtTypeArguments then grammar.typeArguments else pure []
  finish (.type "imported") start (options ++ arguments)

/-- Reads the type of a value. -/
def typeQuery (grammar : Grammar) : Parser Node := do
  let start ← here
  expectWord "typeof"
  let subject ← if ← isAtWord "import" then grammar.importedType else qualifiedName
  let arguments ← grammar.adjoiningTypeArguments
  finish (.type "typeof") start (subject :: arguments)

/-! ## Predicates -/

/-- Reads the part of a predicate that follows its subject `this`, if there is one. -/
def thisPredicate (grammar : Grammar) (start : Nat) : Parser Node := do
  if ← eatWord "is" then
    let type ← grammar.type
    finish (.type "predicate") start [type]
  else
    finish (.type "this") start []

/-- Reads a type or a type predicate behind a sign. -/
def typeOrPredicateAfter (grammar : Grammar) (sign : Sign) : Parser Node := do
  expect sign
  let start ← here
  let asserts ←
    if (← isAtWord "asserts") && Token.isReference (← peek) then
      advance
      pure true
    else
      pure false
  let names :=
    (← isAtReference) && (← peek).isWord "is" && !(← newlineBehind)
  if asserts || names then
    let _ ← anyName
    if names then
      advance
      let type ← grammar.type
      finish (.type "predicate") start [type]
    else
      finish (.type "predicate") start []
  else
    grammar.type

/-- Reads a return type behind a colon, if the colon comes next. -/
def returnType (grammar : Grammar) : Parser (List Node) := do
  if (← hasTypes) && (← isAt .colon) then
    return [← grammar.typeOrPredicateAfter .colon]
  return []

/-! ## Function types -/

/-- Whether a parameter of a signature may be of this form. -/
def isSignatureParameter (parameter : Node) : Bool :=
  match parameter.label with
  | .binding _ | .arrayPattern | .objectPattern | .restPattern => true
  | _ => false

/-- Reads the parameters of a signature and the closing parenthesis. -/
def signatureParameters (grammar : Grammar) : Parser (List Node) := do
  let parameters ← grammar.formalParameters
  unless parameters.all isSignatureParameter do
    unexpected ("an identifier, [ for an array pattern, \x7b for an object patter or ... for a " ++
      "rest pattern")
  expect .rightParen
  return parameters

/-- Goes over what starts a parameter, and says whether there was one. -/
def skipParameterStart (grammar : Grammar) : Parser Bool := do
  skipParameterModifier
  if (← isAtReference) || (← isAtWord "this") then
    advance
    return true
  if (← isAt .leftBrace) || (← isAt .leftBracket) then
    let _ ← grammar.pattern false
    return true
  return false

/-- Whether a function type starts here. -/
def startsFunctionType (grammar : Grammar) : Parser Bool := do
  if ← isAt .less then
    return true
  unless ← isAt .leftParen do
    return false
  foresees do
    advance
    if ← isAtAny [.rightParen, .ellipsis] then
      return true
    if ← grammar.skipParameterStart then
      if ← isAtAny [.colon, .comma, .question, .assign] then
        return true
      if ← eat .rightParen then
        return ← isAt .arrow
    return false

/-- Reads a function type, or the type of a constructor. -/
def functionType (grammar : Grammar) (constructs : Bool) : Parser Node := do
  let start ← here
  if constructs then
    let _ ← eatWord "abstract"
    expectWord "new"
  let typeParameters ← grammar.optionalTypeParameters
  expect .leftParen
  let parameters ← grammar.signatureParameters
  let result ← grammar.typeOrPredicateAfter .arrow
  finish (.type "function") start (typeParameters ++ parameters ++ [result])

/-! ## Members -/

/-- Goes over the end of a member: a comma or the end of a statement. -/
def memberEnd : Parser Unit := do
  unless ← eat .comma do
    unless ← eatStatementEnd do
      expect .semicolon

/-- Reads the name of a member of a type. -/
def typeMemberName (grammar : Grammar) : Parser Node := do
  let start ← here
  match ← token with
  | .sign .leftBracket =>
    advance
    let name ← grammar.assignment
    expect .rightBracket
    finish .computedKey start [name]
  | .string text | .number text | .bigInt text =>
    advance
    finish (.literalKey text) start []
  | _ => memberName

/-- Reads a signature for calls or constructions, up to its end. -/
def callSignature (grammar : Grammar) (start : Nat) : Parser Node := do
  let typeParameters ← grammar.optionalTypeParameters
  expect .leftParen
  let parameters ← grammar.signatureParameters
  let result ← grammar.returnType
  memberEnd
  finish (.type "signature") start (typeParameters ++ parameters ++ result)

/-- Reads an index signature, if one comes next. -/
def indexSignature? (grammar : Grammar) (start : Nat) : Parser (Option Node) := do
  let isNext ←
    if ← isAt .leftBracket then
      foresees do
        advance
        unless ← isAtReference do
          return false
        advance
        isAtAny [.colon, .comma]
    else
      pure false
  unless isNext do
    return none
  advance
  let _ ← anyName
  unless ← eat .comma do
    expect .colon
  let key ← grammar.type
  expect .rightBracket
  let value ← grammar.typeAnnotation
  memberEnd
  return some (← finish (.type "index") start (key :: value))

/-- Reads an accessor of a type. -/
def typeAccessor (grammar : Grammar) (start : Nat) (readonly : Bool) : Parser (Option Node) := do
  if readonly then
    throw .readonlyAccessor
  let gets ← eatWord "get"
  unless gets do
    expectWord "set"
  let name ← grammar.typeMemberName
  expect .leftParen
  if gets then
    expect .rightParen
    let result ← grammar.typeAnnotation
    memberEnd
    return some (← finish (.type "getter") start (name :: result))
  let parameters ← grammar.signatureParameters
  if parameters.isEmpty then
    throw .setterParameter
  memberEnd
  return some (← finish (.type "setter") start (name :: parameters))

/-- Reads a property or method of a type. -/
def typeProperty (grammar : Grammar) (start : Nat) (readonly : Bool) : Parser Node := do
  let name ← grammar.typeMemberName
  let _ ← eat .question
  if ← isAtAny [.leftParen, .less] then
    if readonly then
      throw .readonlyMethod
    let typeParameters ← grammar.optionalTypeParameters
    expect .leftParen
    let parameters ← grammar.signatureParameters
    let result ← grammar.returnType
    memberEnd
    finish (.type "method") start (name :: typeParameters ++ parameters ++ result)
  else
    let annotation ← grammar.typeAnnotation
    memberEnd
    finish (.type "property") start (name :: annotation)

/-- Reads a member of a type. -/
def typeMember (grammar : Grammar) : Parser Node := do
  let start ← here
  if ← isAtAny [.leftParen, .less] then
    return ← grammar.callSignature start
  if ← isAtWord "new" then
    let behind ← peek
    if behind.isSign .leftParen || behind.isSign .less then
      advance
      return ← grammar.callSignature start
  let readonly := (← modifier ["readonly"] false).isSome
  if let some index ← grammar.indexSignature? start then
    return index
  if let some accessor ← attempt (grammar.typeAccessor start readonly) then
    return accessor
  grammar.typeProperty start readonly

/-- Reads the members of a type in braces. -/
def typeMembers (grammar : Grammar) : Parser Node := do
  let start ← here
  expect .leftBrace
  let members ← untilRightBrace grammar.typeMember
  expect .rightBrace
  finish (.type "members") start members

/-! ## Mapped types -/

/-- Whether a mapped type starts here. -/
def startsMappedType : Parser Bool :=
  foresees do
    advance
    if ← eat .plus <||> eat .minus then
      return ← isAtWord "readonly"
    let _ ← eatWord "readonly"
    unless ← eat .leftBracket do
      return false
    unless ← isAtReference do
      return false
    advance
    isAtWord "in"

/-- Goes over a plus or minus sign, if one comes next. -/
def eatPlusOrMinus : Parser Bool := do
  if ← eat .plus then
    return true
  eat .minus

/-- Reads a mapped type. -/
def mappedType (grammar : Grammar) : Parser Node := do
  let start ← here
  expect .leftBrace
  if ← eatPlusOrMinus then
    expectWord "readonly"
  else
    let _ ← eatWord "readonly"
  expect .leftBracket
  let _ ← anyName
  expectWord "in"
  let constraint ← grammar.type
  let name ←
    if ← eatWord "as" then
      pure [← grammar.type]
    else
      pure []
  expect .rightBracket
  if ← eatPlusOrMinus then
    expect .question
  else
    let _ ← eat .question
  let value ← grammar.typeAnnotation
  expectStatementEnd
  expect .rightBrace
  finish (.type "mapped") start (constraint :: name ++ value)

/-! ## Tuples -/

/-- Goes over the label of a tuple element, if there is one. -/
def skipTupleLabel : Parser Unit := do
  let _ ← attempt do
    let _ ← eat .ellipsis
    let _ ← anyName
    let _ ← eat .question
    expect .colon
    return some ()

/-- Reads an element of a tuple. -/
def tupleElement (grammar : Grammar) : Parser Node := do
  let start ← here
  skipTupleLabel
  if ← eat .ellipsis then
    let type ← grammar.type
    finish (.type "rest") start [type]
  else
    let type ← grammar.type
    if ← eat .question then
      finish (.type "optional") start [type]
    else
      return type

/-- Reads a tuple. -/
def tupleType (grammar : Grammar) : Parser Node := do
  let start ← here
  expect .leftBracket
  let elements ← delimited (isAt .rightBracket) grammar.tupleElement
  expect .rightBracket
  finish (.type "tuple") start elements

/-- Reads a template of literal types. -/
def templateType (grammar : Grammar) : Parser Node := do
  let start ← here
  let (_, holes) ← template false grammar.type
  finish (.type "template") start holes

/-! ## Types by binding strength -/

/-- The keywords that name a type when no point follows. -/
def typeKeywords : List String :=
  ["void", "null", "any", "boolean", "bigint", "never", "number", "object", "string", "symbol",
   "unknown", "undefined", "intrinsic"]

/-- Reads a type that a word starts. -/
def wordType (grammar : Grammar) (text : String) : Parser Node := do
  let start ← here
  if text == "this" then
    advance
    if !(← atNewline) && (← isAtWord "is") then
      grammar.thisPredicate start
    else
      finish (.type "this") start []
  else if text == "import" then
    grammar.importedType
  else if text == "typeof" then
    grammar.typeQuery
  else if text == "true" || text == "false" then
    advance
    finish (.type text) start []
  else if Identifier.isIdentifierToken text ||
      ["void", "yield", "null", "await", "break"].contains text then
    if text == "asserts" && (← peek).isWord "this" then
      advance
      advance
      grammar.thisPredicate start
    else if typeKeywords.contains text && !(← peek).isSign .dot then
      advance
      finish (.type text) start []
    else
      grammar.namedType
  else
    unexpectedType
where
  unexpectedType : Parser Node :=
    unexpected ("an identifier, void, yield, null, await, break, a string literal, a numeric " ++
      "literal, true, false, \x60, -, import, this, typeof, \x7b, [, (")

/-- Reads a type that no bracket of an array follows yet. -/
def simpleType (grammar : Grammar) : Parser Node := do
  let start ← here
  match ← token with
  | .word text _ => grammar.wordType text
  | .string _ | .number _ | .bigInt _ =>
    advance
    finish (.type "literal") start []
  | .sign .minus =>
    advance
    match ← token with
    | .number _ | .bigInt _ =>
      advance
      finish (.type "literal") start []
    | _ => unexpected "numeric literal or bigint literal"
  | .sign .backquote => grammar.templateType
  | .sign .leftBrace =>
    if ← startsMappedType then
      grammar.mappedType
    else
      grammar.typeMembers
  | .sign .leftBracket => grammar.tupleType
  | .sign .leftParen =>
    advance
    let inner ← grammar.type
    expect .rightParen
    finish (.type "parentheses") start [inner]
  | .bad error => throw error
  | _ => wordType.unexpectedType

/-- Reads a type with the brackets of arrays and indexed accesses behind it. -/
def arrayType (grammar : Grammar) : Parser Node := do
  let start ← here
  let element ← grammar.simpleType
  iterate
    (fun node => do
      if ← (not <$> atNewline) <&&> eat .leftBracket then
        if ← eat .rightBracket then
          return (← finish (.type "array") start [node], true)
        let index ← grammar.type
        expect .rightBracket
        return (← finish (.type "indexed") start [node, index], true)
      return (node, false))
    element

/-- Reads the type that a conditional type infers. -/
def inferredType (grammar : Grammar) : Parser Node := do
  let start ← here
  advance
  let name ← anyName
  let constraint ← attempt do
    unless ← eatWord "extends" do
      return none
    let constraint ←
      within (fun context => { context with noConditionalType := true })
        grammar.nonConditionalType
    if (← read).noConditionalType || !(← isAt .question) then
      return some constraint
    return none
  finish (.type name) start constraint.toList

/-- Reads a type with the operators before it. -/
def prefixedType (grammar : Grammar) : Parser Node := do
  let start ← here
  if ← isAtAnyWord ["keyof", "unique", "readonly"] then
    advance
    let operand ← grammar.operatorType
    finish (.type "operator") start [operand]
  else if ← isAtWord "infer" then
    grammar.inferredType
  else
    grammar.arrayType

/-- Reads types with an operator between them, which may stand before the first one too. -/
def operatorSeries (sign : Sign) (operand : Parser Node) : Parser Node := do
  let start ← here
  let leading ← eat sign
  let first ← operand
  let others ← collect do
    if ← eat sign then
      return some (← operand)
    return none
  if leading || !others.isEmpty then
    finish (.type sign.spelling) start (first :: others)
  else
    return first

/-- Reads a type that is no conditional type. -/
def functionOrUnionType (grammar : Grammar) : Parser Node := do
  if ← grammar.startsFunctionType then
    grammar.functionType false
  else if (← isAtWord "new") || ((← isAtWord "abstract") && (← peek).isWord "new") then
    grammar.functionType true
  else
    operatorSeries .bitOr (operatorSeries .bitAnd grammar.operatorType)

/-- Reads a type. -/
def conditionalType (grammar : Grammar) : Parser Node := do
  let start ← here
  let allowing (allowed : Bool) : Parser Node → Parser Node :=
    within fun context => { context with noConditionalType := !allowed }
  let subject ← allowing true grammar.nonConditionalType
  if ← atNewline <||> (not <$> eatWord "extends") then
    return subject
  let bound ← allowing false grammar.nonConditionalType
  expect .question
  let positive ← allowing true grammar.type
  expect .colon
  let negative ← allowing true grammar.type
  finish (.type "conditional") start [subject, bound, positive, negative]

end Grammar

end SampleMethods.Script
