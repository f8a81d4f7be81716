import SampleMethods.Script.Grammar.Literal

/-!
# Markup elements

Elements with attributes and children, as the two dialects with markup have
them. Between tags the text is read as it stands, so the parsers here choose
the reading of the text wherever an ordinary token will not do.

An element is read up to the angle bracket that closes its last tag. That
bracket stays, because the place of the element decides how the text behind it
is to be read.
-/

set_option autoImplicit false

namespace SampleMethods.Script

namespace Grammar

open Script.Parser

/-! ## Names -/

/-- Reads a simple name inside a tag, which may hold hyphens. -/
def markupWord : Parser String := do
  unless ← isAtAnyName do
    throw .expectedIdentifier
  let cursor ← get
  reread (readMarkupName cursor.here cursor.position)
  anyName

/-- Reads a name that a colon may divide. Says whether it does. -/
def dividedName : Parser (String × Bool) := do
  let first ← markupWord
  if ← eat .colon then
    return (first ++ ":" ++ (← markupWord), true)
  else
    return (first, false)

/-- Reads the name of an element, which points or a colon may divide. -/
def elementName : Parser String := do
  let (first, divided) ← dividedName
  let others ← collect do
    if ← eat .dot then
      return some (← markupWord)
    return none
  if divided && !others.isEmpty then
    throw .invalidMarkupValue
  return ".".intercalate (first :: others)

/-! ## Ends of tags -/

/-- The angle bracket that closes a tag has to come next. -/
def needGreater : Parser Unit := do
  unless ← isAtGreater do
    expect .greater

/-- The closing brace has to come next. -/
def needRightBrace : Parser Unit := do
  unless ← isAt .rightBrace do
    expect .rightBrace

/-- The node that ends with the one character that the cursor stands at. -/
def finishAtMark (label : Label) (start : Nat) (parts : List Node) : Parser Node :=
  return .mk label ⟨start, (← get).position + 1⟩ parts

/-- Goes over the one character that the cursor stands at and reads the text behind it as
the child of an element. -/
def nextChild : Parser Unit :=
  modify fun cursor =>
    let text := cursor.here.tail
    let position := cursor.position + 1
    let read := readMarkupChild text position
    { cursor with
      lastStop := position, token := read.token, start := position, stop := read.position,
      newline := false, here := text, position := position, rest := read.rest }

/-! ## Expressions in braces -/

/-- Reads what stands in braces, from behind the opening brace up to the closing one,
which stays. The braces may be empty, or hold a spread. -/
def embedded (grammar : Grammar) (start : Nat) : Parser Node :=
  within (fun context => { context.insideBrackets with inConditional := false, allowIn := true }) do
    let inner ←
      if ← isAt .rightBrace then
        pure []
      else
        let _ ← eat .ellipsis
        pure [← grammar.expression]
    needRightBrace
    finishAtMark .embedded start inner

/-! ## Attributes -/

/-- Puts a string without escapes in the place of the next token, if a quote comes next. -/
def rereadQuoted : Parser Unit :=
  modify fun cursor =>
    let behind := readGap .blanks cursor.rest cursor.stop false none
    let after := Cursor.next cursor.rest cursor.stop false { cursor with lastStop := cursor.stop }
    match behind.rest with
    | quote :: rest =>
      if quote == '\x22' || quote == '\x27' then
        let read := readMarkupString quote rest (behind.position + 1)
        { after with token := read.token, stop := read.position, rest := read.rest }
      else
        after
    | [] => after

/-- Reads the value of an attribute, whose equals sign is the next token. -/
def attributeValue (grammar : Grammar) : Parser Node := do
  rereadQuoted
  let start ← here
  match ← token with
  | .string value =>
    advance
    finish (.literal value) start []
  | .sign .leftBrace =>
    advance
    if ← isAt .rightBrace then
      throw .emptyMarkupAttribute
    let value ← grammar.embedded start
    advance
    return value
  | .sign .less =>
    let value ← grammar.element
    let _ ← eatGreater
    return value
  | _ => throw .invalidMarkupValue

/-- Reads an attribute. -/
def markupAttribute (grammar : Grammar) : Parser Node := do
  let start ← here
  if ← eat .leftBrace then
    expect .ellipsis
    let inner ← within (fun context => { context.insideBrackets with allowIn := true })
      grammar.assignment
    expect .rightBrace
    return ← finish .spread start [inner]
  let (name, _) ← dividedName
  if ← isAt .assign then
    let value ← grammar.attributeValue
    finish (.attribute name) start [value]
  else
    finish (.attribute name) start []

/-! ## Elements -/

/-- Reads the children of an element, from the angle bracket of its opening tag to the
start of its closing tag. -/
def children (grammar : Grammar) : Parser (List Node) := do
  nextChild
  collect do
    let start ← here
    match ← token with
    | .markupText text =>
      let cursor ← get
      let read := readMarkupChild cursor.rest cursor.stop
      set { cursor with
        lastStop := cursor.stop, token := read.token, start := cursor.stop, stop := read.position,
        newline := false, here := cursor.rest, position := cursor.stop, rest := read.rest }
      return some (← finish (.markupText text) start [])
    | .sign .leftBrace =>
      advance
      let child ← grammar.embedded start
      nextChild
      return some child
    | .sign .less =>
      if (← peek).isSign .divide then
        return none
      let child ← grammar.element
      nextChild
      return some child
    | .bad error => throw error
    | _ => unexpected "< (jsx tag start), jsx text or \x7b"

/-- Reads the closing tag of an element, from its opening bracket to its closing one,
which stays. Gives the name in it, or nothing in the closing tag of a fragment. -/
def closingTag : Parser (Option String) := do
  advance
  advance
  if ← isAtGreater then
    return none
  let name ← elementName
  needGreater
  return some name

/-- Reads an element that has a name. -/
def namedElement (grammar : Grammar) (start : Nat) : Parser Node := do
  let name ← elementName
  let arguments ←
    if (← hasTypes) && (← isAt .less) then
      pure ((← attempt (return some (← grammar.typeArguments))).getD [])
    else
      pure []
  let attributes ← collect do
    if (← isAt .divide) || (← isAtGreater) || (← isAtEof) then
      return none
    return some (← grammar.markupAttribute)
  if ← eat .divide then
    needGreater
    return ← finishAtMark (.element name) start (arguments ++ attributes)
  needGreater
  let children ← grammar.children
  if (← closingTag) == some name then
    finishAtMark (.element name) start (arguments ++ attributes ++ children)
  else
    throw (.closingTag name)

/-- Reads an element or fragment. The bracket that closes its last tag stays. -/
def markupElement (grammar : Grammar) : Parser Node := do
  let start ← here
  expect .less
  if ← isAtGreater then
    let children ← grammar.children
    if (← closingTag).isSome then
      throw .closingFragment
    finishAtMark .fragment start children
  else
    grammar.namedElement start

end Grammar

end SampleMethods.Script
