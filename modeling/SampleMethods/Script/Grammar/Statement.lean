import SampleMethods.Script.Grammar.Declaration

/-!
# Statements

Statements by their first word. A statement that no keyword starts is an
expression, and its end decides what else it may have been: a label, or a
declaration that a plain word introduces. Functions and classes may stand
wherever a statement may.
-/

set_option autoImplicit false

namespace SampleMethods.Script

namespace Grammar

open Script.Parser

/-! ## Parts of statements -/

/-- Reads an expression with every operator allowed. -/
def fullExpression (grammar : Grammar) : Parser Node :=
  allowingIn true grammar.expression

/-- Reads an expression in parentheses that a statement asks for. -/
def condition (grammar : Grammar) : Parser Node := do
  expect .leftParen
  let node ← grammar.fullExpression
  expect .rightParen
  return node

/-- Reads the statement that another one controls. -/
def controlled (grammar : Grammar) : Parser Node :=
  grammar.statement false

/-! ## Simple statements -/

/-- Reads `break` or `continue` and the label that may follow. -/
def jump (label : Option String → Label) : Parser Node := do
  let start ← here
  advance
  if ← eatStatementEnd then
    finish (label none) start []
  else
    let name ← anyName
    expectStatementEnd
    finish (label (some name)) start []

/-- Reads `return` and the value that may follow. -/
def returnStatement (grammar : Grammar) : Parser Node := do
  let start ← here
  advance
  let value ← if ← isAtStatementEnd then pure [] else pure [← grammar.fullExpression]
  expectStatementEnd
  finish .returnStatement start value

/-- Reads `throw` and its value, which starts on the same line. -/
def throwStatement (grammar : Grammar) : Parser Node := do
  let start ← here
  advance
  if ← atNewline then
    throw .lineBreakInThrow
  let value ← grammar.fullExpression
  expectStatementEnd
  finish .throwStatement start [value]

/-! ## Branches -/

/-- Reads `if` with its branches. -/
def ifStatement (grammar : Grammar) : Parser Node := do
  let start ← here
  advance
  let test ← grammar.condition
  let positive ← grammar.controlled
  if ← eatWord "else" then
    let negative ← grammar.controlled
    finish .ifStatement start [test, positive, negative]
  else
    finish .ifStatement start [test, positive]

/-- Reads a case of a `switch`, if one comes next. `hadDefault` says that the case for
everything else has been read. -/
def switchCase? (grammar : Grammar) (hadDefault : Bool) : Parser (Option (Node × Bool)) := do
  let start ← here
  let isDefault ← isAtWord "default"
  unless isDefault || (← isAtWord "case") do
    return none
  advance
  let test ← if isDefault then pure [] else pure [← grammar.fullExpression]
  if isDefault && hadDefault then
    throw .multipleDefaults
  expect .colon
  let statements ← collect do
    if (← isAtEof) || (← isAt .rightBrace) || (← isAtAnyWord ["case", "default"]) then
      return none
    return some (← grammar.statement true)
  return some (← finish .switchCase start (test ++ statements), hadDefault || isDefault)

/-- Reads `switch` with its cases. -/
def switchStatement (grammar : Grammar) : Parser Node := do
  let start ← here
  advance
  let subject ← grammar.condition
  expect .leftBrace
  let (cases, _) ← iterate
    (fun (state : List Node × Bool) => do
      match ← grammar.switchCase? state.2 with
      | none => return (state, false)
      | some (node, hadDefault) => return ((node :: state.1, hadDefault), true))
    ([], false)
  expect .rightBrace
  finish .switchStatement start (subject :: cases.reverse)

/-- Reads the parameter that a catch clause may have. -/
def catchParameter (grammar : Grammar) : Parser (List Node) := do
  unless ← eat .leftParen do
    return []
  let pattern ← grammar.pattern false
  let annotation ← grammar.typeAnnotation
  expect .rightParen
  return pattern :: annotation

/-- Reads a catch clause, if one comes next. -/
def catchClause (grammar : Grammar) : Parser (List Node) := do
  let start ← here
  unless ← eatWord "catch" do
    return []
  let parameter ← grammar.catchParameter
  let block ← grammar.block
  return [← finish .catchClause start (parameter ++ [block])]

/-- Reads what runs at the end of a `try`, if that comes next. -/
def finallyClause (grammar : Grammar) : Parser (List Node) := do
  if ← eatWord "finally" then
    return [← grammar.block]
  return []

/-- Reads `try`. Its clauses may both be missing. -/
def tryStatement (grammar : Grammar) : Parser Node := do
  let start ← here
  advance
  let block ← grammar.block
  let handler ← grammar.catchClause
  let final ← grammar.finallyClause
  finish .tryStatement start (block :: handler ++ final)

/-- Reads the clauses of a `try` that is missing, and passes over them. -/
def strayClauses (grammar : Grammar) : Parser Node := do
  let start ← here
  let _ ← recover do
    let _ ← grammar.catchClause
    let _ ← grammar.finallyClause
  let inner ← finish .invalid start []
  finish .expressionStatement start [inner]

/-! ## Loops -/

/-- Reads `while` or `with`, whose condition and statement follow it. -/
def guarded (grammar : Grammar) (label : Label) : Parser Node := do
  let start ← here
  advance
  let test ← grammar.condition
  let body ← grammar.controlled
  finish label start [test, body]

/-- Reads `do`, its statement and its condition. A semicolon may follow. -/
def doWhileStatement (grammar : Grammar) : Parser Node := do
  let start ← here
  advance
  let body ← grammar.controlled
  expectWord "while"
  let test ← grammar.condition
  let _ ← eat .semicolon
  finish .doWhileStatement start [body, test]

/-- What stands in the parentheses of a `for`, and which kind of loop it makes. -/
structure LoopHead where
  label : Label
  parts : List Node

/-- Reads the head of a loop from behind its target on. -/
def eachHead (grammar : Grammar) (awaited : Bool) (target : Node) : Parser LoopHead := do
  if ← eatWord "of" then
    let source ← allowingIn true grammar.assignment
    return ⟨.forOfStatement awaited, [target, source]⟩
  else
    advance
    let source ← grammar.fullExpression
    return ⟨.forInStatement, [target, source]⟩

/-- Reads the head of a loop from behind its first semicolon on. -/
def steppedHead (grammar : Grammar) (start : List Node) : Parser LoopHead := do
  let test ←
    if ← eat .semicolon then
      pure []
    else
      let test ← grammar.fullExpression
      expect .semicolon
      pure [test]
  let step ← if ← isAt .rightParen then pure [] else pure [← grammar.fullExpression]
  return ⟨.forStatement, start ++ test ++ step⟩

/-- The word `using`, or `await` in front of it, that an expression turns out to be. -/
def usingWord? (node : Node) : Option Bool :=
  match node with
  | .mk (.reference "using") _ _ => some false
  | .mk .await _ [.mk (.reference "using") _ _] => some true
  | _ => none

/-- Reads the head of a loop that no keyword for variables starts. -/
def expressionHead (grammar : Grammar) (awaited : Bool) : Parser LoopHead := do
  let start ← here
  let first ← allowingIn false grammar.expression
  if (← hasTypes) && !(← isAtWord "of") then
    let behind ← peek
    if let some resourceAwaited := usingWord? first then
      if behind.isWord "of" || behind.isWord "in" then
        let nameStart ← here
        let name ← bindingName false
        let binding ← finish (.binding name) nameStart []
        let declarator ← finish .declarator nameStart [binding]
        let target ← finish (.usingDeclaration resourceAwaited) start [declarator]
        return ← grammar.eachHead awaited target
  if ← isAtLoopWord then
    let target ← ofExcept first.asLoopTarget
    return ← grammar.eachHead awaited target
  expect .semicolon
  grammar.steppedHead [first]

/-- Reads the head of a loop. -/
def loopHead (grammar : Grammar) (awaited : Bool) : Parser LoopHead := do
  if (← isAtAnyWord ["const", "var"]) || ((← isAtWord "let") && (← letDeclares)) then
    let declaration ← grammar.variableDeclaration true
    if ← isAtLoopWord then
      return ← grammar.eachHead awaited declaration
    expect .semicolon
    grammar.steppedHead [declaration]
  else if ← eat .semicolon then
    grammar.steppedHead []
  else
    grammar.expressionHead awaited

/-- Reads a `for` loop. Only a loop over elements may wait for them. -/
def forStatement (grammar : Grammar) : Parser Node := do
  let start ← here
  advance
  let awaited ← eatWord "await"
  expect .leftParen
  let head ← grammar.loopHead awaited
  expect .rightParen
  let body ← grammar.controlled
  match awaited, head.label with
  | false, _ | true, .forOfStatement _ => finish head.label start (head.parts ++ [body])
  | true, _ => throw .awaitOutsideForOf

/-! ## Statements that an expression starts -/

/-- Reads the statement behind a label and its colon. -/
def labeledStatement (grammar : Grammar) (start : Nat) (label : String) : Parser Node := do
  let body ← grammar.controlled
  finish (.labeledStatement label) start [body]

/-- Reads the declaration that a plain word, which has been read, introduces. -/
def introducedDeclaration? (grammar : Grammar) (start : Nat) (word : String) :
    Parser (Option Node) := do
  match word with
  | "declare" => grammar.declared? start
  | "global" =>
    if ← isAt .leftBrace then
      let body ← grammar.itemBlock
      return some (← finish (.namespaceDeclaration word) start [body])
    return none
  | "abstract" =>
    if let some declaration ← grammar.wordDeclaration? start word false then
      return some declaration
    if ← eatWord "interface" then
      return some (← grammar.interfaceDeclaration start)
    return none
  | _ => grammar.wordDeclaration? start word false

/-- Reads the end of a statement that is an expression. A binary operator on a new line
behind something that takes none goes on with the expression. -/
def expressionEnd (grammar : Grammar) (start : Nat) (node : Node) : Parser Node := do
  if ← eatStatementEnd then
    return ← finish .expressionStatement start [node]
  match ← token with
  | .sign sign =>
    if sign.isBinary then
      let node ← grammar.binaryFrom (← get).limit node 0
      return ← finish .expressionStatement start [node]
    throw .expectedStatementEnd
  | .bad error => throw error
  | _ => throw .expectedStatementEnd

/-- Reads a statement that an expression starts. -/
def expressionStatement (grammar : Grammar) : Parser Node := do
  let start ← here
  let node ← grammar.fullExpression
  match node.label with
  | .reference name =>
    if ← eat .colon then
      return ← grammar.labeledStatement start name
    if ← hasTypes then
      if let some declaration ← grammar.introducedDeclaration? start name then
        return declaration
  | _ => pure ()
  grammar.expressionEnd start node

/-- Reads a statement that starts with `await using`. -/
def awaitUsing (grammar : Grammar) : Parser Node := do
  let start ← here
  advance
  if ← usingDeclares then
    return ← grammar.usingDeclaration start true
  let operand ← grammar.unary
  let awaited ← finish .await start [operand]
  let node ← allowingIn true (do grammar.binaryFrom (← get).limit awaited 0)
  let _ ← eatStatementEnd
  finish .expressionStatement start [node]

/-- Reads an import in expression form where a whole statement may stand. Its end may be
missing. -/
def importStatement (grammar : Grammar) : Parser Node := do
  let start ← here
  let node ← grammar.expression
  let _ ← eatStatementEnd
  finish .expressionStatement start [node]

/-- Whether an import in expression form comes next. -/
def isAtImportExpression : Parser Bool := do
  let behind ← peek
  return (← isAtWord "import") && (behind.isSign .leftParen || behind.isSign .dot)

/-! ## Statements by their first word -/

/-- Whether a declaration follows a word that only introduces one. -/
def introducesOnLine : Parser Bool := do
  return (← peek).isAnyWord && !(← newlineBehind)

/-- Reads a declaration that may stand only in a list of statements, if one comes next. -/
def listedDeclaration? (grammar : Grammar) : Parser (Option Node) := do
  let start ← here
  match ← token with
  | .word "const" true => return some (← grammar.variableDeclaration false)
  | .word "let" true =>
    if ← letDeclares then
      return some (← grammar.variableDeclaration false)
    return none
  | .word "using" true =>
    if ← usingDeclares then
      return some (← grammar.usingDeclaration start false)
    return none
  | .word "await" true =>
    if (← peek).isWord "using" then
      return some (← grammar.awaitUsing)
    return none
  | _ => return none

/-- Reads a declaration that a word introduces where types are allowed, if one comes
next. -/
def typedDeclaration? (grammar : Grammar) : Parser (Option Node) := do
  unless ← hasTypes do
    return none
  let start ← here
  if (← isAtWord "const") && (← peek).isWord "enum" then
    advance
    advance
    return some (← grammar.enumDeclaration start)
  unless (← isAtAnyWord ["interface", "type", "enum"]) && (← introducesOnLine) do
    return none
  let word ← anyName
  match word with
  | "interface" => return some (← grammar.interfaceDeclaration start)
  | "type" => return some (← grammar.typeDeclaration start)
  | _ => return some (← grammar.enumDeclaration start)

/-- Reads a statement that a keyword starts, if one comes next. -/
def keywordStatement? (grammar : Grammar) : Parser (Option Node) := do
  let start ← here
  match ← token with
  | .word "break" true => return some (← jump .breakStatement)
  | .word "continue" true => return some (← jump .continueStatement)
  | .word "debugger" true =>
    advance
    expectStatementEnd
    return some (← finish .debuggerStatement start [])
  | .word "do" true => return some (← grammar.doWhileStatement)
  | .word "for" true => return some (← grammar.forStatement)
  | .word "function" true => return some (← grammar.functionDeclaration true)
  | .word "class" true => return some (← grammar.classDeclaration start true)
  | .word "if" true => return some (← grammar.ifStatement)
  | .word "return" true => return some (← grammar.returnStatement)
  | .word "switch" true => return some (← grammar.switchStatement)
  | .word "throw" true => return some (← grammar.throwStatement)
  | .word "catch" true | .word "finally" true => return some (← grammar.strayClauses)
  | .word "try" true => return some (← grammar.tryStatement)
  | .word "with" true => return some (← grammar.guarded .withStatement)
  | .word "while" true => return some (← grammar.guarded .whileStatement)
  | .word "var" true => return some (← grammar.variableDeclaration false)
  | .sign .leftBrace => return some (← grammar.block)
  | .sign .semicolon =>
    advance
    return some (← finish .emptyStatement start [])
  | .word "async" true =>
    if (← peek).isWord "function" && !(← newlineBehind) then
      return some (← grammar.functionDeclaration true)
    return none
  | _ => return none

/-- Reads a statement that is no import or export. -/
def plainStatement (grammar : Grammar) (declares : Bool) : Parser Node :=
  within Context.insideBrackets do
    if let some declaration ← grammar.typedDeclaration? then
      return declaration
    if declares then
      if let some declaration ← grammar.listedDeclaration? then
        return declaration
    if let some statement ← grammar.keywordStatement? then
      return statement
    grammar.expressionStatement

/-- Reads a statement inside of another one. Imports and exports cannot stand there. -/
def nestedStatement (grammar : Grammar) (declares : Bool) : Parser Node := do
  if ← isAtImportExpression then
    grammar.importStatement
  else if ← isAtAnyWord ["import", "export"] then
    throw .importOutsideModule
  else
    grammar.plainStatement declares

end Grammar

end SampleMethods.Script
