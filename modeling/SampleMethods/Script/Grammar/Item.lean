import SampleMethods.Script.Grammar.Statement

/-!
# Imports and exports

The items of a module that are no statements. Names that an import or export
lists are checked and then dropped; what an export declares is kept.
-/

set_option autoImplicit false

namespace SampleMethods.Script

namespace Grammar

open Script.Parser

/-! ## Sources -/

/-- Reads the attributes of an import or export, if there are any. -/
def sourceAttributes (grammar : Grammar) : Parser (List Node) := do
  if !(← atNewline) && (← isAtAnyWord ["assert", "with"]) then
    advance
    return [← grammar.objectLiteral]
  return []

/-- Reads the source of an import or export, behind the word `from`, and the end of the
item. -/
def source (grammar : Grammar) : Parser (String × List Node) := do
  match ← token with
  | .string text =>
    advance
    let attributes ← grammar.sourceAttributes
    expectStatementEnd
    return (text, attributes)
  | _ => unexpected "a string literal"

/-- Reads the word `from`, the source behind it, and the end of the item. -/
def fromSource (grammar : Grammar) : Parser (String × List Node) := do
  expectWord "from"
  grammar.source

/-- Reads a module that an import gives another name: one that is asked for by its
source, or a qualified name. -/
def importEquals (start : Nat) (label : String → Label) : Parser Node := do
  expect .assign
  if (← isAtWord "require") && (← peek).isSign .leftParen then
    advance
    advance
    match ← token with
    | .string _ => advance
    | _ => unexpected "a string literal"
    expect .rightParen
  else
    let _ ← qualifiedName
  expectStatementEnd
  finish (label "") start []

/-! ## Listed names -/

/-- A name in the list of an import or export: a word, or a string. -/
inductive ListedName where
  | word (text : String)
  | string
deriving DecidableEq, Repr

/-- Reads a name in the list of an import or export. -/
def listedName : Parser ListedName := do
  match ← token with
  | .string _ =>
    advance
    return .string
  | .word text _ =>
    advance
    return .word text
  | _ => unexpected "identifier or string"

/-- Reads what follows the words `type` and `as` in a list: a name may follow, and another
one when that name is `as` again. -/
def afterTypeAs (name : Parser String) : Parser Unit := do
  if ← isAtAnyName then
    let second ← name
    if second == "as" && (← isAtAnyName) then
      let _ ← name

/-- Reads a name in the list of an export, and the name that it is given. -/
def exportedName : Parser Unit := do
  let first ← listedName
  let whole ←
    if (← hasTypes) && first == .word "type" && (← isAtAnyName) then
      let second ← anyName
      if second == "as" then
        afterTypeAs anyName
        pure true
      else
        pure false
    else
      pure false
  unless whole do
    if ← eatWord "as" then
      let _ ← listedName

/-- Reads the name that an imported name is given, or checks that it can keep its own. -/
def localName (first : ListedName) : Parser Unit := do
  if ← eatWord "as" then
    let _ ← bindingName false
  else
    match first with
    | .word text =>
      if Identifier.isReserved text then
        throw .reservedImport
    | .string => throw .stringImport

/-- Reads a name in the list of an import. -/
def importedName : Parser Unit := do
  let first ← listedName
  if (← hasTypes) && first == .word "type" && (← isAtAnyName) then
    let second ← anyName
    if second == "as" then
      afterTypeAs (bindingName false)
    else
      localName (.word second)
  else
    localName first

/-- Reads a list of names in braces. -/
def listedNames (one : Parser Unit) : Parser Unit := do
  expect .leftBrace
  let _ ← collect do
    if (← isAtEof) || (← isAt .rightBrace) then
      return none
    one
    unless ← isAt .rightBrace do
      expect .comma
    return some ()
  expect .rightBrace

/-! ## Imports -/

/-- What an import has in front of the list of its names. -/
inductive ImportHead where
  /-- A name for the default, or nothing. -/
  | names (default : Bool)
  /-- The import gives another name to a module. -/
  | equals
  /-- Only a list of names can follow. -/
  | listOnly
deriving DecidableEq, Repr

/-- Whether the next token is a name rather than the word `from` in front of a source. -/
def isAtBoundName : Parser Bool := do
  unless ← isAtReference do
    return false
  return !(← isAtWord "from") || (← peek).isWord "from"

/-- Reads the word `type`, `source` or `defer` as what it is: a mark of the whole import
or the name of the default. -/
def importHead : Parser ImportHead := do
  unless ← isAtReference do
    return .listOnly
  let first ← bindingName false
  let types ← hasTypes
  if types && first == "type" && (← isAtAny [.times, .leftBrace]) then
    return .listOnly
  if types && first == "type" then
    if (← isAtBoundName) || ((← isAtReference) && (← peek).isSign .assign) then
      let _ ← bindingName false
  if types && (← isAt .assign) then
    return .equals
  if first == "defer" && (← isAt .times) then
    return .listOnly
  if (first == "source" || first == "defer") && (← isAtBoundName) then
    let _ ← bindingName false
  return .names true

/-- Reads the names of an import in braces, or the name for all of them. -/
def importList : Parser Unit := do
  if ← eat .times then
    expectWord "as"
    let _ ← bindingName false
  else if ← isAt .leftBrace then
    listedNames importedName

/-- Reads the list of names of an import and its source. -/
def importRest (grammar : Grammar) (start : Nat) : Parser Node := do
  importList
  let (text, attributes) ← grammar.fromSource
  finish (.importDeclaration text) start attributes

/-- Reads an import. -/
def importItem (grammar : Grammar) : Parser Node := do
  let start ← here
  expectWord "import"
  match ← token with
  | .string _ =>
    let (text, attributes) ← grammar.source
    finish (.importDeclaration text) start attributes
  | _ =>
    match ← importHead with
    | .equals => importEquals start .importDeclaration
    | .listOnly => grammar.importRest start
    | .names _ =>
      unless ← isAtWord "from" do
        expect .comma
      grammar.importRest start

/-! ## Exports -/

/-- Whether the next tokens are the two words, on one line. -/
def isAtWords (first second : String) : Parser Bool := do
  return (← isAtWord first) && (← peek).isWord second && !(← newlineBehind)

/-- Reads what an export makes the default. -/
def exportedDefault (grammar : Grammar) (start : Nat) : Parser Node := do
  let types ← hasTypes
  let inner ← here
  if types && (← isAtWords "abstract" "class") then
    advance
    let declaration ← grammar.classDeclaration inner false
    return ← finish (.exportDeclaration "") start [declaration]
  if types && (← isAtWord "interface") then
    advance
    let declaration ← grammar.interfaceDeclaration inner
    return ← finish (.exportDeclaration "") start [declaration]
  if ← isAtWord "class" then
    let declaration ← grammar.classDeclaration inner false
    return ← finish (.exportDeclaration "") start [declaration]
  if (← isAtWords "async" "function") || (← isAtWord "function") then
    let declaration ← grammar.functionDeclaration false
    return ← finish (.exportDeclaration "") start [declaration]
  let value ← allowingIn true grammar.assignment
  expectStatementEnd
  finish (.exportDeclaration "") start [value]

/-- Reads an export that only the dialects with types have, if one comes next. -/
def typedExport? (grammar : Grammar) (start : Nat) : Parser (Option Node) := do
  unless ← hasTypes do
    return none
  let inner ← here
  if ← eatWord "declare" then
    if let some declaration ← grammar.declared? inner then
      return some (← finish (.exportDeclaration "") start [declaration])
  match ← token with
  | .word text _ =>
    let wordStart ← here
    if let some declaration ← attempt (grammar.wordDeclaration? wordStart text true) then
      return some (← finish (.exportDeclaration "") start [declaration])
  | _ => pure ()
  if ← eatWord "import" then
    if (← isAtWord "type") && Token.isReference (← peek) then
      advance
    let _ ← anyName
    return some (← importEquals start .exportDeclaration)
  if ← eat .assign then
    let value ← grammar.fullExpression
    expectStatementEnd
    return some (← finish (.exportDeclaration "") start [value])
  if ← eatWord "as" then
    expectWord "namespace"
    let _ ← identifier
    expectStatementEnd
    return some (← finish (.exportDeclaration "") start [])
  return none

/-- Reads a declaration that is exported as it stands, if one comes next. -/
def exportedDeclaration? (grammar : Grammar) : Parser (Option Node) := do
  let start ← here
  if ← isAtWord "class" then
    return some (← grammar.classDeclaration start true)
  if (← isAtWords "async" "function") || (← isAtWord "function") then
    return some (← grammar.functionDeclaration true)
  if (← hasTypes) && (← isAtWord "const") && (← peek).isWord "enum" then
    advance
    advance
    return some (← grammar.enumDeclaration start)
  if (← isAtAnyWord ["var", "const"]) || ((← isAtWord "let") && (← letDeclares)) then
    return some (← grammar.variableDeclaration false)
  return none

/-- Reads exported names and the source that they may come from. -/
def exportedNames (grammar : Grammar) (start : Nat) : Parser Node := do
  if ← eat .times then
    if ← eatWord "as" then
      let _ ← listedName
    let (text, attributes) ← grammar.fromSource
    finish (.exportDeclaration text) start attributes
  else
    listedNames exportedName
    if ← isAtWord "from" then
      let (text, attributes) ← grammar.fromSource
      finish (.exportDeclaration text) start attributes
    else
      let _ ← eatStatementEnd
      finish (.exportDeclaration "") start []

/-- Reads an export. -/
def exportItem (grammar : Grammar) : Parser Node := do
  let start ← here
  expectWord "export"
  if let some node ← grammar.typedExport? start then
    return node
  if ← hasTypes <&&> eatWord "type" then
    return ← grammar.exportedNames start
  if ← eatWord "default" then
    return ← grammar.exportedDefault start
  if let some declaration ← grammar.exportedDeclaration? then
    return ← finish (.exportDeclaration "") start [declaration]
  grammar.exportedNames start

/-- Reads a statement, import or export. -/
def moduleItem (grammar : Grammar) : Parser Node := do
  if ← isAtImportExpression then
    grammar.importStatement
  else if ← isAtWord "import" then
    grammar.importItem
  else if ← isAtWord "export" then
    grammar.exportItem
  else
    grammar.plainStatement true

end Grammar

end SampleMethods.Script
