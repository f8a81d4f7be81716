import SampleMethods.Script.Dialect
import SampleMethods.Script.Token.Reader
import SampleMethods.Script.Tree

/-!
# Reading a script by its grammar

The grammar is a set of parsers over a cursor, which holds one token of
lookahead and the text around it. A parser that fails leaves the cursor where
the failure was found, because a few constructs recover from a failure inside
them and go on from there. `attempt` is the other way to go on: it takes the
cursor back.

Constructs nest, so the parsers refer to one another. `Grammar` is the record
of those parsers that stand for a whole construct, and every parser that needs
an inner construct takes such a record. The record for a nesting depth is built
from the record for the depth below.
-/

set_option autoImplicit false

namespace SampleMethods.Script

/-! ## Cursor and context -/

/-- The place in a text that a parser has come to. -/
structure Cursor where
  /-- The token that comes next. -/
  token : Token
  /-- The position of that token, or of the comment in front that it begins with. -/
  start : Nat
  /-- The position behind that token. -/
  stop : Nat
  /-- Whether a line ends between the token before and this one. -/
  newline : Bool
  /-- The text from the first character of the token. -/
  here : List Char
  /-- The position of that text. -/
  position : Nat
  /-- The text behind the token. -/
  rest : List Char
  /-- The position behind the token before. -/
  lastStop : Nat
  /-- Where an arrow function may start. -/
  arrowStart : Option Nat
  /-- A bound on the number of tokens of the whole text. -/
  limit : Nat
deriving Repr

/-- Moves to the next token of a text. -/
def Cursor.next (text : List Char) (position : Nat) (newline : Bool) (cursor : Cursor) : Cursor :=
  let gap := readGap .blanks text position newline none
  let read := readToken gap.rest gap.position
  { cursor with
    token := read.token, start := gap.lead.getD gap.position, stop := read.position,
    newline := gap.newline, here := gap.rest, position := gap.position, rest := read.rest }

/-- Whether the token may name a variable that an expression refers to. -/
def Token.isReference : Token → Bool
  | .word text _ => !Identifier.isReserved text
  | _ => false

/-- What the constructs around decide about the reading of a construct. -/
structure Context where
  dialect : Dialect
  /-- Whether `in` is an operator. -/
  allowIn : Bool
  inAsync : Bool
  inGenerator : Bool
  inFunction : Bool
  inParameters : Bool
  /-- Whether the declaration says that its subject is defined elsewhere. -/
  inDeclare : Bool
  /-- Whether a conditional expression is open. -/
  inConditional : Bool
  /-- Whether a colon of a conditional expression has still to come. -/
  awaitsColon : Bool
  /-- Whether properties of the parent may be named. -/
  allowSuper : Bool
  /-- Whether a type may not be a conditional one. -/
  noConditionalType : Bool
deriving Repr

/-- A parser of a part of a script. -/
abbrev Parser := ReaderT Context (EStateM SyntaxError Cursor)

/-- The parsers that stand for whole constructs. -/
structure Grammar where
  expression : Parser Node
  assignment : Parser Node
  unary : Parser Node
  leftHandSide : Parser Node
  /-- What `new` is applied to. -/
  newOperand : Parser Node
  /-- A statement, which may or may not be a declaration. -/
  statement : Bool → Parser Node
  /-- A statement, import or export. -/
  item : Parser Node
  pattern : Bool → Parser Node
  type : Parser Node
  nonConditionalType : Parser Node
  operatorType : Parser Node
  /-- The name and members of a namespace that starts at the position. -/
  namespaceBody : Nat → Parser Node
  element : Parser Node
deriving Inhabited

namespace Parser

/-! ## Tokens -/

/-- Puts another reading of the text at the cursor in the place of its token. -/
def reread (read : Read) : Parser Unit :=
  modify fun cursor =>
    { cursor with token := read.token, stop := read.position, rest := read.rest }

/-- The token that comes next. -/
def token : Parser Token :=
  return (← get).token

/-- The position of the next token. -/
def here : Parser Nat :=
  return (← get).start

/-- Whether a line ends before the next token. -/
def atNewline : Parser Bool :=
  return (← get).newline

/-- Goes over the next token. Text that starts no token is never passed. -/
def advance : Parser Unit :=
  modify fun cursor =>
    match cursor.token with
    | .bad _ => cursor
    | _ => Cursor.next cursor.rest cursor.stop false { cursor with lastStop := cursor.stop }

/-- The cursor behind the next token. -/
def lookahead : Parser Cursor :=
  return (fun cursor => Cursor.next cursor.rest cursor.stop false cursor) (← get)

/-- The token behind the next one. -/
def peek : Parser Token :=
  return (← lookahead).token

/-- Whether a line ends between the next token and the one behind it. -/
def newlineBehind : Parser Bool :=
  return (← lookahead).newline

/-! ## Failure -/

/-- Another token was wanted. -/
def unexpected {α : Type} (wanted : String) : Parser α := do
  throw (.unexpected (← token).describe wanted)

/-- The next token starts no expression. -/
def noExpression {α : Type} : Parser α := do
  match ← token with
  | .bad error => throw error
  | _ => throw .expectedExpression

/-- Runs a parser and takes the cursor back when it fails or answers nothing. -/
def attempt {α : Type} (parser : Parser (Option α)) : Parser (Option α) :=
  fun context cursor =>
    match parser context cursor with
    | .ok (some value) after => .ok (some value) after
    | _ => .ok none cursor

/-- Asks a parser and takes the cursor back. A failure answers no. -/
def foresees (parser : Parser Bool) : Parser Bool :=
  fun context cursor =>
    match parser context cursor with
    | .ok answer _ => .ok answer cursor
    | .error _ _ => .ok false cursor

/-- Runs a parser and puts a failure aside, with the cursor where it was found. -/
def recover {α : Type} (parser : Parser α) : Parser (Except SyntaxError α) :=
  fun context cursor =>
    match parser context cursor with
    | .ok value after => .ok (.ok value) after
    | .error error after => .ok (.error error) after

/-! ## Signs and words -/

/-- Whether the next token is the sign. -/
def isAt (sign : Sign) : Parser Bool :=
  return (← token).isSign sign

/-- Whether the next token is the word. -/
def isAtWord (word : String) : Parser Bool :=
  return (← token).isWord word

/-- Whether the next token is one of the signs. -/
def isAtAny (signs : List Sign) : Parser Bool := do
  let token ← token
  return signs.any token.isSign

/-- Whether the next token is one of the words. -/
def isAtAnyWord (words : List String) : Parser Bool := do
  let token ← token
  return words.any token.isWord

/-- Goes over the sign if it comes next. -/
def eat (sign : Sign) : Parser Bool := do
  if ← isAt sign then
    advance
    return true
  return false

/-- Goes over the word if it comes next. -/
def eatWord (word : String) : Parser Bool := do
  if ← isAtWord word then
    advance
    return true
  return false

/-- Goes over the sign, which has to come next. -/
def expect (sign : Sign) : Parser Unit := do
  unless ← eat sign do
    throw (.expected sign.spelling (← token).describe)

/-- Goes over the word, which has to come next. -/
def expectWord (word : String) : Parser Unit := do
  unless ← eatWord word do
    throw (.expected word (← token).describe)

/-- Whether a statement may end before the next token: at a semicolon, at a closing
brace, at the end of the text, and at a line end. -/
def isAtStatementEnd : Parser Bool := do
  let cursor ← get
  return cursor.newline || cursor.token.isSign .semicolon || cursor.token.isSign .rightBrace ||
    cursor.token == .eof

/-- Goes over the end of a statement, if there is one, together with its semicolon. -/
def eatStatementEnd : Parser Bool := do
  if ← eat .semicolon then
    return true
  isAtStatementEnd

/-- Goes over the end of a statement, which there has to be. -/
def expectStatementEnd : Parser Unit := do
  unless ← eatStatementEnd do
    throw .expectedSemicolon

/-- Whether the text ends. -/
def isAtEof : Parser Bool :=
  return (← token) == .eof

/-- Whether the next token may name a variable. -/
def isAtReference : Parser Bool :=
  return Token.isReference (← token)

/-- Whether the next token is a word of any kind. -/
def isAtAnyName : Parser Bool :=
  return (← token).isAnyWord

/-- Whether the dialect has type annotations. -/
def hasTypes : Parser Bool :=
  return (← read).dialect.hasTypes

/-- Whether the dialect has markup elements. -/
def hasMarkup : Parser Bool :=
  return (← read).dialect.hasMarkup

/-! ## Brackets of type arguments -/

/-- Whether the next token starts with `>`. -/
def isAtGreater : Parser Bool := do
  match ← token with
  | .sign sign => return sign.afterGreater.isSome
  | _ => return false

/-- Goes over one `>`, which may be the start of a longer sign. -/
def eatGreater : Parser Bool := do
  match ← token with
  | .sign sign =>
    match sign.afterGreater with
    | none => return false
    | some none =>
      advance
      return true
    | some (some remaining) =>
      modify fun cursor =>
        { cursor with
          token := .sign remaining, start := cursor.position + 1, newline := false,
          here := cursor.here.tail, position := cursor.position + 1,
          lastStop := cursor.position + 1 }
      return true
  | _ => return false

/-- Goes over one `>`, which has to come next. -/
def expectGreater : Parser Unit := do
  unless ← eatGreater do
    throw (.expected ">" (← token).describe)

/-- Goes over one `<`, which may be the first half of `<<`. -/
def eatLess : Parser Bool := do
  if ← eat .less then
    return true
  if ← isAt .shiftLeft then
    modify fun cursor =>
      { cursor with
        token := .sign .less, start := cursor.position + 1, newline := false,
        here := cursor.here.tail, position := cursor.position + 1,
        lastStop := cursor.position + 1 }
    return true
  return false

/-! ## Nodes and lists -/

/-- The node that starts at the position and ends with the token before the cursor. -/
def finish (label : Label) (start : Nat) (parts : List Node) : Parser Node :=
  return .mk label ⟨start, (← get).lastStop⟩ parts

/-- Runs a step again and again until it answers nothing. `rounds` bounds the number of
steps. -/
def collectUpTo {α : Type} : Nat → Parser (Option α) → Parser (List α)
  | 0, _ => throw .nestedTooDeeply
  | rounds + 1, step => do
    match ← step with
    | none => return []
    | some value => return value :: (← collectUpTo rounds step)

/-- Runs a step, which goes over at least one token, until it answers nothing. -/
def collect {α : Type} (step : Parser (Option α)) : Parser (List α) := do
  collectUpTo (← get).limit step

/-- Carries a value through a step, which goes over at least one token, until the step
answers that the value is final. -/
def iterateUpTo {α : Type} : Nat → (α → Parser (α × Bool)) → α → Parser α
  | 0, _, _ => throw .nestedTooDeeply
  | rounds + 1, step, value => do
    let (value, again) ← step value
    if again then iterateUpTo rounds step value else return value

/-- Carries a value through a step until the step answers that the value is final. -/
def iterate {α : Type} (step : α → Parser (α × Bool)) (value : α) : Parser α := do
  iterateUpTo (← get).limit step value

/-- Runs a parser in a changed context. -/
def within {α : Type} (change : Context → Context) (parser : Parser α) : Parser α :=
  fun context cursor => parser (change context) cursor

/-- Runs a parser with `in` as an operator, or not. -/
def allowingIn {α : Type} (allowed : Bool) (parser : Parser α) : Parser α :=
  within (fun context => { context with allowIn := allowed }) parser

/-! ## Words as names -/

/-- Reads a word of any kind. -/
def anyName : Parser String := do
  match ← token with
  | .word text _ =>
    advance
    return text
  | _ => throw .expectedIdentifier

/-- Reads the name of a variable. Words that only strict code reserves are let through,
and `await` in a declaration of something that is defined elsewhere. -/
def identifier : Parser String := do
  match ← token with
  | .word text _ =>
    if text == "await" then
      if (← read).inDeclare then
        advance
        return text
      throw .awaitAsIdentifier
    if Identifier.keywords.contains text && !(text == "this" && (← hasTypes)) then
      throw .expectedIdentifier
    advance
    return text
  | _ => throw .expectedIdentifier

/-- Reads the name of a variable that is declared. -/
def bindingName (refusesLet : Bool) : Parser String := do
  if refusesLet && (← isAtWord "let") then
    unexpected "let is reserved in const, let, class declaration"
  identifier

/-- Reads the name that a declaration may have, if it has one. -/
def optionalBindingName (refusesLet : Bool) : Parser (Option String) := do
  if (← isAtReference) || ((← hasTypes) && (← isAtWord "this")) then
    return some (← bindingName refusesLet)
  return none

/-- Reads a private name. Its mark stands directly before the word. -/
def privateName : Parser Node := do
  let start ← here
  expect .hash
  if (← get).newline || (← get).start != (← get).lastStop then
    throw .expectedIdentifier
  let name ← anyName
  finish (.privateName name) start []

/-- Reads a word or a private name. -/
def memberName : Parser Node := do
  if ← isAt .hash then
    privateName
  else
    let start ← here
    let name ← anyName
    finish (.key name) start []

end Parser

end SampleMethods.Script
