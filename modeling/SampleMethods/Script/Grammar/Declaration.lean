import SampleMethods.Script.Grammar.Subscript

/-!
# Declarations

Variables, and the declarations that only the dialects with types have:
interfaces, type names, enumerations and namespaces. `declare` says that its
subject is defined elsewhere; the declaration then starts at that word.
-/

set_option autoImplicit false

namespace SampleMethods.Script

namespace Node

/-- The node with another start. A declared function takes its function along. -/
def startingAt (start : Nat) : Node → Node
  | .mk label span [.mk (.function asynchronous generator) inner parts] =>
    .mk label ⟨start, span.stop⟩
      [.mk (.function asynchronous generator) ⟨start, inner.stop⟩ parts]
  | .mk label span parts => .mk label ⟨start, span.stop⟩ parts

end Node

namespace Grammar

open Script.Parser

/-! ## Variables -/

/-- Whether a declaration follows the word `let`, rather than an expression. -/
def letDeclares : Parser Bool := do
  match ← peek with
  | .word text _ =>
    return Identifier.isIdentifierToken text || ["let", "yield", "await"].contains text
  | .sign .leftBrace | .sign .leftBracket => return true
  | _ => return false

/-- Whether the keyword of a loop over elements or keys comes next. -/
def isAtLoopWord : Parser Bool :=
  isAtAnyWord ["of", "in"]

/-- Reads the initial value of a variable, if there is one. -/
def initializer (grammar : Grammar) (keyword : String) (inLoopHead : Bool) (target : Node) :
    Parser (List Node) := do
  if inLoopHead && (← isAtLoopWord) then
    return []
  if ← eat .assign then
    return [← grammar.assignment]
  if (← read).inDeclare || (keyword == "const" && !inLoopHead) then
    return []
  match target.label with
  | .binding _ => return []
  | _ => throw .patternWithoutInitializer

/-- Reads a declarator: a name or pattern, its annotation, and its initial value. -/
def declarator (grammar : Grammar) (keyword : String) (inLoopHead : Bool) : Parser Node := do
  let start ← here
  let target ← grammar.pattern (keyword != "var")
  match target.label with
  | .binding _ =>
    if ← hasTypes then
      let _ ← eat .not
  | _ => pure ()
  let annotation ← grammar.typeAnnotation
  let value ← grammar.initializer keyword inLoopHead target
  finish .declarator start (target :: annotation ++ value)

/-- Reads declarators with commas between them. A comma may stand before a semicolon. -/
def declarators (one : Parser Node) : Parser (List Node) := do
  let rounds ← iterate
    (fun (declarators : List Node) => do
      if (← isAt .semicolon) || (← isAtEof) then
        return (declarators, false)
      let next ← one
      return (next :: declarators, ← eat .comma))
    []
  return rounds.reverse

/-- Goes over the rest of a statement that does not end where it should. -/
def skipToStatementEnd (grammar : Grammar) : Parser Unit := do
  let _ ← recover grammar.expression
  let _ ← collect do
    if ← eatStatementEnd then
      return none
    advance
    match ← token with
    | .bad _ => return none
    | _ => return some ()

/-- Whether the head of a loop has a keyword for variables and no variable. -/
def hasNoVariable (grammar : Grammar) : Parser Bool := do
  unless (← hasTypes) && (← isAtLoopWord) do
    return false
  foresees do
    advance
    let _ ← grammar.assignment
    expect .rightParen
    return true

/-- Reads a declaration of variables, from its keyword on. -/
def variableDeclaration (grammar : Grammar) (inLoopHead : Bool) : Parser Node := do
  let start ← here
  let keyword ← anyName
  if inLoopHead && (← grammar.hasNoVariable) then
    return ← finish (.variableDeclaration keyword) start []
  let one := grammar.declarator keyword inLoopHead
  let declared ←
    if keyword == "var" && inLoopHead then
      declarators one
    else
      declarators (allowingIn true one)
  unless inLoopHead do
    unless ← eatStatementEnd do
      grammar.skipToStatementEnd
  finish (.variableDeclaration keyword) start declared

/-- Whether a declaration of a resource follows the word `using`. -/
def usingDeclares : Parser Bool := do
  return Token.isReference (← peek) && !(← newlineBehind)

/-- Reads a declaration of resources, from the word `using` on. -/
def usingDeclaration (grammar : Grammar) (start : Nat) (awaited : Bool) : Parser Node := do
  advance
  let declared ← declarators (grammar.declarator "var" false)
  expectStatementEnd
  finish (.usingDeclaration awaited) start declared

/-! ## Interfaces, type names and enumerations -/

/-- Reads an interface behind its keyword. -/
def interfaceDeclaration (grammar : Grammar) (start : Nat) : Parser Node := do
  let name ← anyName
  let typeParameters ← grammar.optionalTypeParameters
  let bases ← heritageClause "extends" grammar.heritage
  if ← isAtWord "extends" then
    let _ ← collect do
      if (← isAtEof) || (← isAt .leftBrace) then
        return none
      advance
      return some ()
  let members ← grammar.typeMembers
  finish (.interfaceDeclaration name) start (typeParameters ++ bases ++ [members])

/-- Reads a name for a type behind its keyword. -/
def typeDeclaration (grammar : Grammar) (start : Nat) : Parser Node := do
  let name ← anyName
  let typeParameters ← grammar.optionalTypeParameters
  expect .assign
  let type ← grammar.type
  expectStatementEnd
  finish (.typeDeclaration name) start (typeParameters ++ [type])

/-- Reads a member of an enumeration. -/
def enumMember (grammar : Grammar) : Parser Node := do
  let start ← here
  let name ←
    match ← token with
    | .string text | .number text =>
      advance
      finish (.literalKey text) start []
    | .sign .leftBracket =>
      advance
      let inner ← allowingIn true grammar.expression
      expect .rightBracket
      finish .computedKey start [inner]
    | _ =>
      let text ← anyName
      finish (.key text) start []
  let value ← if ← eat .assign then pure [← grammar.assignment] else pure []
  finish .property start (name :: value)

/-- Reads an enumeration behind its keyword. -/
def enumDeclaration (grammar : Grammar) (start : Nat) : Parser Node := do
  let name ← anyName
  expect .leftBrace
  let members ← delimited (isAt .rightBrace) grammar.enumMember
  expect .rightBrace
  finish (.enumDeclaration name) start members

/-! ## Namespaces -/

/-- Reads items in braces. The end of the text closes them as well. -/
def itemBlock (grammar : Grammar) : Parser Node := do
  let start ← here
  expect .leftBrace
  let items ← collect do
    if (← isAtEof) || (← isAt .rightBrace) then
      return none
    return some (← grammar.item)
  let _ ← eat .rightBrace
  finish .block start items

/-- Reads a namespace from its name on. Points in the name stand for namespaces inside
namespaces. -/
def namespaceDeclaration (grammar : Grammar) (start : Nat) : Parser Node := do
  let name ← anyName
  let body ←
    if ← eat .dot then
      grammar.namespaceBody (← here)
    else
      grammar.itemBlock
  finish (.namespaceDeclaration name) start [body]

/-- Reads what a module with a string for a name, or the global scope, declares. -/
def ambientModule (grammar : Grammar) (start : Nat) : Parser Node := do
  let name ←
    match ← token with
    | .string text =>
      advance
      pure text
    | .word "global" true =>
      advance
      pure "global"
    | _ => unexpected "global or a string literal"
  if ← isAt .leftBrace then
    let body ← grammar.itemBlock
    finish (.namespaceDeclaration name) start [body]
  else
    expectStatementEnd
    finish (.namespaceDeclaration name) start []

/-! ## Declarations that a word introduces -/

/-- Reads the declaration that a word introduces, if it introduces one. `sure` says that
the word is still the next token and can be nothing else; otherwise it has been read. -/
def wordDeclaration? (grammar : Grammar) (start : Nat) (word : String) (sure : Bool) :
    Parser (Option Node) := do
  let enter (declaration : Parser Node) : Parser (Option Node) := do
    if sure then
      advance
    return some (← declaration)
  match word with
  | "abstract" =>
    if sure || ((← isAtWord "class") && !(← atNewline)) then
      return ← enter (grammar.classDeclaration start true)
    return none
  | "enum" =>
    if sure || (← isAtReference) then
      return ← enter (grammar.enumDeclaration start)
    return none
  | "interface" =>
    if sure || (← isAtReference) then
      return ← enter (grammar.interfaceDeclaration start)
    return none
  | "module" =>
    if ← atNewline then
      return none
    if sure then
      advance
    match ← token with
    | .string _ => return some (← grammar.ambientModule start)
    | _ =>
      if sure || (← isAtReference) then
        return some (← grammar.namespaceDeclaration start)
      return none
  | "namespace" =>
    if sure || (← isAtReference) then
      return ← enter (grammar.namespaceDeclaration start)
    return none
  | "type" =>
    if sure || (!(← atNewline) && (← isAtReference)) then
      return ← enter (grammar.typeDeclaration start)
    return none
  | _ => return none

/-- Reads what the word `declare`, which has been read, says to be defined elsewhere, if
that is what it says. -/
def declared? (grammar : Grammar) (start : Nat) : Parser (Option Node) :=
  within (fun context => { context with inDeclare := true }) do
    if ← isAtWord "function" then
      return some ((← grammar.functionDeclaration true).startingAt start)
    if ← isAtWord "class" then
      return some (← grammar.classDeclaration start true)
    if (← isAtWord "const") && (← peek).isWord "enum" then
      advance
      advance
      return some (← grammar.enumDeclaration start)
    if ← isAtAnyWord ["const", "var", "let"] then
      return some ((← grammar.variableDeclaration false).startingAt start)
    if ← isAtWord "global" then
      return some (← grammar.ambientModule start)
    match ← token with
    | .word text _ => grammar.wordDeclaration? start text true
    | _ => return none

end Grammar

end SampleMethods.Script
