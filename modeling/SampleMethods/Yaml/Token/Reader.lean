import SampleMethods.Yaml.Token.Property
import SampleMethods.Yaml.Token.Scalar

/-!
# Reading the tokens of YAML documents

Tokens are read when they are asked for, and no further than that needs. Two
things make that more than a row of single tokens. Indentation opens and closes
block collections, so the columns of the open ones are kept in a stack. And a
key without a sign in front of it is known as one only when its colon comes: a
place where a key may start is kept as pending, and the token for the key is put
in front of what was read since then. No token is handed out while a key may
still start at it.
-/

set_option autoImplicit false

namespace SampleMethods.Yaml

/-- A place where a key may start whose colon has not come yet. -/
structure PendingKey where
  /-- Whether the colon has to come, because a key is all that may stand there. -/
  required : Bool
  /-- The number of tokens in front of the key. -/
  position : Nat
  mark : Mark
deriving DecidableEq, Repr

/-- What is known while the tokens of a document are read. -/
structure Tokenizer where
  cursor : Cursor
  started : Bool
  /-- The column of the innermost block, which is below zero outside of all blocks. -/
  indent : Int
  /-- The columns of the blocks around it. -/
  indents : List Int
  /-- Whether a key may start at the cursor. -/
  keyAllowed : Bool
  /-- The place of a pending key in the innermost flow collection, or outside of all. -/
  key : Option PendingKey
  /-- The same for the collections around it, one for each. -/
  outerKeys : List (Option PendingKey)
  /-- The tokens that have been read and not been handed out. -/
  queue : List Token
  /-- The number of tokens that have been handed out. -/
  taken : Nat
deriving Repr

namespace Tokenizer

/-- Nothing of a document has been read. -/
def ofText (text : List Char) : Tokenizer where
  cursor := ⟨text, .start⟩
  started := false
  indent := -1
  indents := []
  keyAllowed := true
  key := none
  outerKeys := []
  queue := []
  taken := 0

/-- Whether the cursor is in a flow collection. -/
def inFlow (state : Tokenizer) : Bool :=
  !state.outerKeys.isEmpty

/-- The state with one more token. -/
def push (state : Tokenizer) (token : Token) : Tokenizer :=
  { state with queue := state.queue ++ [token] }

/-- The state with a token in front of those that were read since a pending key. -/
def insertAt (state : Tokenizer) (position : Nat) (token : Token) : Tokenizer :=
  let (before, after) := state.queue.splitAt (position - state.taken)
  { state with queue := before ++ token :: after }

/-- The state with the blocks closed that are indented by more than the column. -/
def closeBlocks (state : Tokenizer) (column : Int) : Tokenizer :=
  if state.inFlow then state
  else
    let columns := state.indent :: state.indents
    let remaining := columns.dropWhile fun indent => column < indent
    let closed := columns.length - remaining.length
    let mark := state.cursor.mark
    { state with
      indent := remaining.head?.getD (-1),
      indents := remaining.tail,
      queue := state.queue ++ List.replicate closed ⟨.blockEnd, mark, mark⟩ }

end Tokenizer

/-! ## Steps -/

/-- What reads tokens, or refuses the document. -/
abbrev Tokenize := StateT Tokenizer (Except Error)

namespace Tokenize

/-- Reads on from the cursor. -/
def scan {α : Type} (reading : Scan α) : Tokenize α := do
  let state ← get
  let (result, cursor) ← reading.run state.cursor
  set { state with cursor := cursor }
  return result

/-- Refuses the document for a problem at the cursor. -/
def fail {α : Type} (context : Option Context) (problem : Problem) : Tokenize α := do
  throw (.form ⟨problem, (← get).cursor.mark, context⟩)

/-- Adds a token. -/
def push (token : Token) : Tokenize Unit :=
  modify (·.push token)

/-- Opens a block at a column, if it is indented by more than the innermost one. The token for
it is put where it starts. -/
def openBlock (kind : Token.Kind) (mark : Mark) (position : Option Nat) : Tokenize Unit := do
  let state ← get
  if !state.inFlow && state.indent < mark.column then
    let token : Token := ⟨kind, mark, mark⟩
    let state := match position with
      | some position => state.insertAt position token
      | none => state.push token
    set { state with indent := mark.column, indents := state.indent :: state.indents }

/-! ### Pending keys -/

/-- Gives up a pending key. -/
def giveUp (key : Option PendingKey) : Tokenize (Option PendingKey) := do
  if let some key := key then
    if key.required then
      fail (some ⟨.simpleKey, key.mark⟩) .missingColon
  return none

/-- Gives up the innermost pending key. -/
def giveUpKey : Tokenize Unit := do
  let key ← giveUp (← get).key
  modify fun state => { state with key := key }

/-- Remembers that a key may start at the cursor, if it may. -/
def markKey : Tokenize Unit := do
  let state ← get
  if state.keyAllowed then
    giveUpKey
    let mark := state.cursor.mark
    let key : PendingKey :=
      ⟨!state.inFlow && state.indent == mark.column, state.taken + state.queue.length, mark⟩
    modify fun state => { state with key := some key }

/-- The number of characters that a key may have. -/
def keyLimit : Nat := 1024

/-- Whether a pending key is too far behind: in another line, or too long. -/
def isStale (mark : Mark) (key : PendingKey) : Bool :=
  key.mark.line < mark.line || key.mark.index + keyLimit < mark.index

/-- Gives up the pending keys that are too far behind, the outermost one first. -/
def giveUpStale : Tokenize Unit := do
  let state ← get
  let check (key : Option PendingKey) : Tokenize (Option PendingKey) :=
    if key.any (isStale state.cursor.mark) then giveUp key else return key
  let outerKeys ← state.outerKeys.reverse.mapM check
  let key ← check state.key
  modify fun state => { state with key := key, outerKeys := outerKeys.reverse }

/-! ### Single tokens -/

/-- Lets a key start at the cursor, or not. -/
def allowKey (allowed : Bool) : Tokenize Unit :=
  modify fun state => { state with keyAllowed := allowed }

/-- Reads a token of so many characters. -/
def sign (kind : Token.Kind) (length : Nat) : Tokenize Unit := do
  let start := (← get).cursor.mark
  scan (Scan.drop length)
  push ⟨kind, start, (← get).cursor.mark⟩

/-- Reads the start of the document. -/
def streamStart : Tokenize Unit := do
  let mark := (← get).cursor.mark
  modify fun state => { state with started := true }
  push ⟨.streamStart, mark, mark⟩

/-- Closes all blocks in front of something that stands outside of them. -/
def leaveBlocks : Tokenize Unit := do
  modify (·.closeBlocks (-1))
  giveUpKey
  allowKey false

/-- Reads the end of the document. A line that is not finished is taken to be. -/
def streamEnd : Tokenize Unit := do
  modify fun state =>
    let mark := state.cursor.mark
    if mark.column = 0 then state
    else { state with cursor := ⟨state.cursor.rest, ⟨mark.index, mark.line + 1, 0⟩⟩ }
  leaveBlocks
  sign .streamEnd 0

/-- Reads a marker between documents. -/
def documentMarker (kind : Token.Kind) : Tokenize Unit := do
  leaveBlocks
  sign kind 3

/-- Reads the start of a flow collection. -/
def flowStart (kind : Token.Kind) : Tokenize Unit := do
  markKey
  modify fun state => { state with key := none, outerKeys := state.key :: state.outerKeys }
  allowKey true
  sign kind 1

/-- Reads the end of a flow collection. -/
def flowEnd (kind : Token.Kind) : Tokenize Unit := do
  giveUpKey
  modify fun state =>
    match state.outerKeys with
    | [] => state
    | key :: outerKeys => { state with key := key, outerKeys := outerKeys }
  allowKey false
  sign kind 1

/-- Reads a comma between the items of a flow collection. -/
def flowEntry : Tokenize Unit := do
  giveUpKey
  allowKey true
  sign .flowEntry 1

/-- Opens a block for a sign at the cursor, which has to be where a key may start. -/
def openAtSign (kind : Token.Kind) (problem : Problem) : Tokenize Unit := do
  let state ← get
  unless state.inFlow do
    unless state.keyAllowed do
      fail none problem
    openBlock kind state.cursor.mark none

/-- Reads the dash in front of an item of a block sequence. -/
def blockEntry : Tokenize Unit := do
  openAtSign .blockSequenceStart .blockEntryOutOfPlace
  giveUpKey
  allowKey true
  sign .blockEntry 1

/-- Reads the question mark in front of a key. -/
def key : Tokenize Unit := do
  openAtSign .blockMappingStart .keyOutOfPlace
  giveUpKey
  allowKey (!(← get).inFlow)
  sign .key 1

/-- Reads the colon in front of a value. A pending key becomes a key by it. -/
def value : Tokenize Unit := do
  match (← get).key with
  | some key =>
    modify (·.insertAt key.position ⟨.key, key.mark, key.mark⟩)
    openBlock .blockMappingStart key.mark (some key.position)
    modify fun state => { state with key := none, keyAllowed := false }
  | none =>
    openAtSign .blockMappingStart .valueOutOfPlace
    allowKey (!(← get).inFlow)
  sign .value 1

/-- Reads a token that a key may start with. -/
def keyPart (reading : Scan Token) : Tokenize Unit := do
  markKey
  allowKey false
  push (← scan reading)

/-- Reads a plain scalar. A key may start behind one that a line break follows. -/
def plain : Tokenize Unit := do
  markKey
  allowKey false
  let state ← get
  let (token, broken) ← scan (plainScalar state.inFlow (state.indent + 1))
  if broken then
    allowKey true
  push token

/-- Reads a block scalar. -/
def block (literal : Bool) : Tokenize Unit := do
  giveUpKey
  allowKey true
  push (← scan (blockScalar literal (← get).indent))

/-- Reads a directive. -/
def directiveLine : Tokenize Unit := do
  leaveBlocks
  push (← scan directive)

/-! ### The next token -/

/-- The characters that a plain scalar may not start with, or not without more. -/
def indicators : List Char :=
  "-?:,[]\x7b\x7d#&*!|>'\"%@\x60".toList

/-- Whether a plain scalar starts with the text. -/
def startsPlain (flow : Bool) : List Char → Bool
  | [] => false
  | character :: rest =>
    !(isGap [character] || indicators.contains character) ||
      (character == '-' && !rest.head?.any isSpace) ||
      (!flow && (character == '?' || character == ':') && !isGap rest)

/-- Moves to the next token over blanks, comments and line breaks. A tab does not count as a
blank where a key may start in a block. -/
def skipToToken : Nat → Tokenize Unit
  | 0 => return
  | rounds + 1 => do
    let state ← get
    if state.cursor.mark.index = 0 && state.cursor.startsWith '\uFEFF' then
      scan (Scan.drop 1)
    let tabs := state.inFlow || !state.keyAllowed
    scan (Scan.skip fun character => character == ' ' || (tabs && character == '\t'))
    scan Scan.comment
    if (← get).cursor.atBreak then
      discard (scan Scan.lineBreak)
      unless state.inFlow do
        allowKey true
      skipToToken rounds

/-- Reads the token at the cursor. -/
def tokenAtCursor : Tokenize Unit := do
  let state ← get
  let cursor := state.cursor
  let flow := state.inFlow
  match cursor.rest with
  | [] => streamEnd
  | character :: rest =>
    if cursor.mark.column = 0 && character == '%' then directiveLine
    else if cursor.atDocumentMarker then
      documentMarker (if character == '-' then .documentStart else .documentEnd)
    else if character == '[' then flowStart .flowSequenceStart
    else if character == '\x7b' then flowStart .flowMappingStart
    else if character == ']' then flowEnd .flowSequenceEnd
    else if character == '\x7d' then flowEnd .flowMappingEnd
    else if character == ',' then flowEntry
    else if character == '-' && isGap rest then blockEntry
    else if character == '?' && (flow || isGap rest) then key
    else if character == ':' && (flow || isGap rest) then value
    else if character == '*' then keyPart aliasToken
    else if character == '&' then keyPart anchorToken
    else if character == '!' then keyPart (tag flow)
    else if character == '|' && !flow then block true
    else if character == '>' && !flow then block false
    else if character == '\'' || character == '"' then keyPart (quotedScalar character)
    else if startsPlain flow cursor.rest then plain
    else fail (some ⟨.nextToken, cursor.mark⟩) .noTokenStarts

/-- Reads one more token, and those that indentation puts in front of it. -/
def readToken : Tokenize Unit := do
  if (← get).started then
    skipToToken ((← get).cursor.rest.length + 1)
    giveUpStale
    modify fun state => state.closeBlocks state.cursor.mark.column
    tokenAtCursor
  else streamStart

/-- Reads tokens until there is one at which no key may start any more. -/
def readAhead : Nat → Tokenize Unit
  | 0 => return
  | rounds + 1 => do
    unless (← get).queue.isEmpty do
      giveUpStale
      let state ← get
      let mayStart (key : Option PendingKey) := key.any fun key => key.position == state.taken
      unless mayStart state.key || state.outerKeys.any mayStart do
        return
    readToken
    readAhead rounds

/-- The next token, which stays where it is. -/
def peek : Tokenize Token := do
  readAhead ((← get).cursor.rest.length + 3)
  match (← get).queue with
  | token :: _ => return token
  | [] =>
    let mark := (← get).cursor.mark
    return ⟨.streamEnd, mark, mark⟩

/-- Hands out the next token. -/
def take : Tokenize Token := do
  let token ← peek
  modify fun state => { state with queue := state.queue.tail, taken := state.taken + 1 }
  return token

end Tokenize

end SampleMethods.Yaml
