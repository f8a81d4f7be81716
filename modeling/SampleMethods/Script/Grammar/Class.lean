import SampleMethods.Script.Grammar.Function

/-!
# Classes

A class is one node that holds what the class extends and implements and, as
its last part, the body in braces. The words that modify a member may name a
member too, so each of them is looked at together with the token behind it.
-/

set_option autoImplicit false

namespace SampleMethods.Script

namespace Grammar

open Script.Parser

/-! ## Heritage -/

/-- Reads what a class extends. -/
def superclass (grammar : Grammar) : Parser Node := do
  let start ← here
  let base ← grammar.leftHandSide
  if (← hasTypes) && (← isAt .less) then
    let arguments ← grammar.typeArguments
    finish .instantiation start (base :: arguments)
  else
    return base

/-- Whether a list of interfaces ends here. -/
def isAtHeritageEnd : Parser Bool := do
  return (← isAt .leftBrace) || (← isAtWord "implements") || (← isAtWord "extends")

/-- Reads a list of what is extended or implemented. -/
def heritage (grammar : Grammar) : Parser (List Node) :=
  delimited isAtHeritageEnd grammar.superclass

/-- Reads a clause of a class that starts with the word, if it comes next. -/
def heritageClause (word : String) (clause : Parser (List Node)) : Parser (List Node) := do
  if ← eatWord word then
    clause
  else
    return []

/-- Reads the clauses between the name of a class and its body. Clauses that are
repeated or stand in the wrong order are let through. -/
def classHeritage (grammar : Grammar) : Parser (List Node) := do
  let base ← heritageClause "extends" do
    let base ← grammar.superclass
    let others ← if ← hasTypes <&&> eat .comma then grammar.heritage else pure []
    return base :: others
  let repeated ← heritageClause "extends" do
    return [← grammar.superclass]
  if ← hasTypes then
    let interfaces ← heritageClause "implements" grammar.heritage
    let more ← heritageClause "implements" grammar.heritage
    let late ← heritageClause "extends" do
      return [← grammar.superclass]
    return base ++ repeated ++ interfaces ++ more ++ late
  else
    return base ++ repeated

/-! ## Members -/

/-- Whether the parameters of a method come next. -/
def isAtMethod : Parser Bool := do
  return (← isAt .leftParen) || ((← hasTypes) && (← isAt .less))

/-- Whether a property goes on or ends here. `mayEndLine` says whether the end of a line
counts as its end. -/
def isAtProperty (mayEndLine : Bool) : Parser Bool := do
  if (← hasTypes) && (← isAtAny [.not, .colon]) then
    return true
  if ← isAtAny [.assign, .rightBrace] then
    return true
  if mayEndLine then isAtStatementEnd else isAt .semicolon

/-- Whether the word that has just been read names a property. -/
def isAtNamedProperty (mayEndLine : Bool) : Parser Bool := do
  return (← isAtProperty mayEndLine) || ((← hasTypes) && (← isAt .question))

/-- Whether the node is the name of a constructor. -/
def isConstructorName (name : Node) : Bool :=
  match name.label with
  | .key text | .literalKey text => text == "constructor"
  | _ => false

/-- Reads the name of a member. -/
def classMemberName (grammar : Grammar) : Parser Node := do
  if ← isAt .hash then
    privateName
  else
    grammar.propertyName

/-- Goes over the mark of an optional member. -/
def eatOptionalMark : Parser Bool := do
  if ← hasTypes then
    eat .question
  else
    return false

/-- Reads a property from the mark behind its name on. The semicolon at its end may be
missing. -/
def classProperty (grammar : Grammar) (start : Nat) (modifiers : String) (name : Node)
    (optional : Bool) : Parser Node := do
  if isConstructorName name then
    throw .constructorProperty
  if (← hasTypes) && !optional then
    let _ ← eat .not
  let annotation ← grammar.typeAnnotation
  let value ←
    if ← eat .assign then
      let value ←
        within (fun context => { context with allowIn := true, inAsync := false })
          grammar.assignment
      pure [value]
    else
      pure []
  let _ ← eatStatementEnd
  finish (.classMember modifiers) start (name :: annotation ++ value)

/-- Reads a method from its type parameters on. -/
def classMethod (grammar : Grammar) (start : Nat) (modifiers : String) (name : Node)
    (asynchronous generator : Bool) : Parser Node := do
  let function ← grammar.methodTail start asynchronous generator
  finish (.classMember modifiers) start [name, function]

/-- Reads a constructor from its type parameters on. -/
def classConstructor (grammar : Grammar) (start : Nat) (name : Node) : Parser Node := do
  if (← isAt .less) && (← peek).isSign .greater then
    advance
    advance
  let function ← within (fun context => { context with allowSuper := true })
    (grammar.functionTail start false false (grammar.parameters grammar.constructorParameter))
  finish (.classMember "constructor") start [name, function]

/-- Reads statements that run when the class is made. -/
def staticBlock (grammar : Grammar) (start : Nat) : Parser Node := do
  let block ←
    within (fun context => { context with inAsync := false, inGenerator := false, allowIn := true })
      grammar.block
  finish (.classMember "static") start [block]

/-- What follows a word that may modify a member. -/
inductive WordRole where
  /-- The word names a method. -/
  | method
  /-- The word names a property. -/
  | property
  /-- The word modifies what follows. -/
  | modifier
deriving DecidableEq, Repr

/-- Decides what the word that has just been read is. -/
def wordRole (mayEndLine : Bool) : Parser WordRole := do
  if ← isAtMethod then
    return .method
  if ← isAtNamedProperty mayEndLine then
    return .property
  return .modifier

/-- Reads a member that has just the word as its name. -/
def wordMember (grammar : Grammar) (start : Nat) (word : String) (role : WordRole) :
    Parser Node := do
  let name ← finish (.key word) start []
  let optional ← eatOptionalMark
  if role == .method then
    grammar.classMethod start "" name false false
  else
    grammar.classProperty start "" name optional

/-- Reads a member that follows its name, when the name is one that a function keyword
could have been: `async`, `get` or `set`. -/
def markedMethod (grammar : Grammar) (start : Nat) (modifiers : String) (asynchronous : Bool) :
    Parser Node := do
  let generator ← if asynchronous then eat .times else pure false
  let name ← grammar.classMemberName
  let _ ← if asynchronous then eatOptionalMark else pure false
  grammar.classMethod start modifiers name asynchronous generator

/-- Reads a member from its name on. -/
def namedMember (grammar : Grammar) (start : Nat) (modifiers : List String) : Parser Node := do
  let joined := " ".intercalate modifiers
  let readonly := modifiers.contains "readonly"
  let nameStart ← here
  let name ←
    if readonly && (← isAtAny [.not, .colon]) then
      finish (.key "readonly") nameStart []
    else
      grammar.classMemberName
  let optional ← eatOptionalMark
  if ← isAtMethod then
    if readonly then
      throw .readonlyMethod
    if isConstructorName name && !modifiers.contains "static" then
      return ← grammar.classConstructor start name
    return ← grammar.classMethod start joined name false false
  let isAccessor ←
    match name.label with
    | .key "get" | .key "set" =>
      let generatorOnNextLine := (← atNewline) && (← isAt .times)
      pure (!(← isAtProperty false) && !generatorOnNextLine)
    | _ => pure false
  if !isAccessor && (← isAtProperty true) then
    return ← grammar.classProperty start joined name optional
  match name.label with
  | .key "async" =>
    if !(← atNewline) then
      let _ ← modifier ["override"] false
      return ← grammar.markedMethod start joined true
  | _ => pure ()
  if isAccessor then
    grammar.markedMethod start joined false
  else
    unexpected "* for generator, private key, identifier or async"

/-- Reads a member from its modifiers on. `isStatic` says that `static` has been read. -/
def modifiedMember (grammar : Grammar) (start : Nat) (accessible isStatic accessor : Bool) :
    Parser Node := do
  let modifiers ← collect (modifier ["abstract", "readonly", "override", "static"] true)
  let accessor ← if (← hasTypes) && !accessor then eatWord "accessor" else pure accessor
  let modifiers :=
    (if isStatic then ["static"] else []) ++ modifiers ++ (if accessor then ["accessor"] else [])
  if modifiers.contains "static" && (← isAt .leftBrace) then
    return ← grammar.staticBlock start
  if (← hasTypes) && !accessible && !modifiers.contains "abstract" &&
      !modifiers.contains "override" then
    if let some index ← grammar.indexSignature? start then
      return index
  if ← eat .times then
    let name ← grammar.classMemberName
    grammar.classMethod start (" ".intercalate modifiers) name false true
  else
    grammar.namedMember start modifiers

/-- Reads a member of a class. -/
def classMember (grammar : Grammar) : Parser Node := do
  let start ← here
  let types ← hasTypes
  let declared ← if types then eatWord "declare" else pure false
  let access ←
    if types then
      modifier ["public", "protected", "private", "in", "out"] false
    else
      pure none
  let declared ← if types && !declared then eatWord "declare" else pure declared
  if declared then
    let role ← wordRole true
    if role != .modifier then
      return ← grammar.wordMember start "declare" role
  let isStatic ← eatWord "static"
  let accessor ← if types then eatWord "accessor" else pure false
  if accessor then
    let role ← wordRole true
    if role != .modifier then
      return ← grammar.wordMember start "accessor" role
  if isStatic && !accessor then
    let role ← wordRole false
    if role != .modifier then
      return ← grammar.wordMember start "static" role
  let accessible := (access.map fun word => word != "in" && word != "out").getD false
  grammar.modifiedMember start accessible isStatic accessor

/-- Reads the body of a class. The end of the text closes it as well. -/
def classBody (grammar : Grammar) : Parser Node := do
  let start ← here
  expect .leftBrace
  let members ← collect do
    if ← isAtEof then
      return none
    if ← isAt .rightBrace then
      return none
    let memberStart ← here
    if ← eat .semicolon then
      return some (← finish .emptyStatement memberStart [])
    return some (← grammar.classMember)
  let _ ← eat .rightBrace
  finish .classBody start members

/-! ## Whole classes -/

/-- Reads a class from its type parameters on. -/
def classTail (grammar : Grammar) (start : Nat) : Parser Node :=
  within (fun context => { context.insideBrackets with allowSuper := true }) do
    let typeParameters ← grammar.optionalTypeParameters
    let heritage ← grammar.classHeritage
    let body ← grammar.classBody
    finish .classValue start (typeParameters ++ heritage ++ [body])

/-- Reads a class declaration. Only an exported default may be without a name. -/
def classDeclaration (grammar : Grammar) (start : Nat) (named : Bool) : Parser Node := do
  expectWord "class"
  let name ←
    if named then
      bindingName true
    else
      pure ((← optionalBindingName true).getD "")
  let value ← grammar.classTail start
  finish (.classDeclaration name) start [value]

/-- Reads a class expression. -/
def classExpression (grammar : Grammar) : Parser Node := do
  let start ← here
  expectWord "class"
  let _ ← optionalBindingName true
  grammar.classTail start

end Grammar

end SampleMethods.Script
