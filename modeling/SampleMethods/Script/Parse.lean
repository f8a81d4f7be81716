import SampleMethods.Script.Grammar.Item

/-!
# Reading a whole script

The grammar of every nesting depth, tied together, and the reading of a text as
a module. How deeply constructs may be nested grows with the length of the text
(`depthFor`). Below that depth everything is refused, with an error of its own.
-/

set_option autoImplicit false

namespace SampleMethods.Script

namespace Grammar

/-- The grammar that refuses everything. -/
def refusing : Grammar where
  expression := throw .nestedTooDeeply
  assignment := throw .nestedTooDeeply
  unary := throw .nestedTooDeeply
  leftHandSide := throw .nestedTooDeeply
  newOperand := throw .nestedTooDeeply
  statement _ := throw .nestedTooDeeply
  item := throw .nestedTooDeeply
  pattern _ := throw .nestedTooDeeply
  type := throw .nestedTooDeeply
  nonConditionalType := throw .nestedTooDeeply
  operatorType := throw .nestedTooDeeply
  namespaceBody _ := throw .nestedTooDeeply
  element := throw .nestedTooDeeply

/-- The grammar for constructs that are nested at most so deeply. -/
def ofDepth : Nat → Grammar
  | 0 => refusing
  | depth + 1 =>
    { expression := fun context cursor => (ofDepth depth).sequenceExpression context cursor
      assignment := fun context cursor => (ofDepth depth).assignmentExpression context cursor
      unary := fun context cursor => (ofDepth depth).unaryExpression context cursor
      leftHandSide := fun context cursor => (ofDepth depth).leftHandSideExpression context cursor
      newOperand := fun context cursor => (ofDepth depth).newExpression context cursor
      statement := fun declares context cursor =>
        (ofDepth depth).nestedStatement declares context cursor
      item := fun context cursor => (ofDepth depth).moduleItem context cursor
      pattern := fun refusesLet context cursor =>
        (ofDepth depth).bindingPattern refusesLet context cursor
      type := fun context cursor => (ofDepth depth).conditionalType context cursor
      nonConditionalType := fun context cursor =>
        (ofDepth depth).functionOrUnionType context cursor
      operatorType := fun context cursor => (ofDepth depth).prefixedType context cursor
      namespaceBody := fun start context cursor =>
        (ofDepth depth).namespaceDeclaration start context cursor
      element := fun context cursor => (ofDepth depth).markupElement context cursor }

/-- The depth to which the constructs of a text of this length are read. -/
def depthFor (length : Nat) : Nat :=
  8 * length + 64

end Grammar

/-! ## Modules -/

/-- The context at the top of a module. -/
def Context.ofModule (dialect : Dialect) : Context where
  dialect := dialect
  allowIn := false
  inAsync := false
  inGenerator := false
  inFunction := false
  inParameters := false
  inDeclare := false
  inConditional := false
  awaitsColon := false
  allowSuper := false
  noConditionalType := false

/-- The text behind a byte order mark and behind a first line that names an interpreter,
with its position. -/
def skipPreamble (text : List Char) : List Char × Nat :=
  let (text, position) :=
    match text with
    | '\uFEFF' :: rest => (rest, 1)
    | text => (text, 0)
  match text with
  | '#' :: '!' :: _ =>
    let line := text.takeWhile fun character => !isLineTerminator character
    (text.drop line.length, position + line.length)
  | text => (text, position)

/-- The cursor at the first token of a text. -/
def Cursor.atStart (text : List Char) : Cursor :=
  let (rest, position) := skipPreamble text
  Cursor.next rest position true
    { token := .eof, start := position, stop := position, newline := true, here := rest,
      position := position, rest := rest, lastStop := position, arrowStart := none,
      limit := text.length + 2 }

/-- Reads every item of a module. -/
def Grammar.items (grammar : Grammar) : Parser (List Node) :=
  Parser.collect do
    if ← Parser.isAtEof then
      return none
    return some (← grammar.item)

/-- Reads a text as a module. -/
def Module.parse (dialect : Dialect) (text : List Char) : Except SyntaxError Module :=
  let grammar := Grammar.ofDepth (Grammar.depthFor text.length)
  match grammar.items (Context.ofModule dialect) (Cursor.atStart text) with
  | .ok items _ => .ok ⟨items⟩
  | .error error _ => .error error

end SampleMethods.Script
