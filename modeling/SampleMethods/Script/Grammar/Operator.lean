import SampleMethods.Script.Grammar.Function
import SampleMethods.Script.Grammar.Target

/-!
# Operators

Unary and binary operators, conditional expressions and assignments. An arrow
function is no operand: an operator that finds one hands it on as it is.

An operand that fails to be read in front of a binary operator, or behind a
unary one, is passed over, and so a script with such an operand is accepted
when the rest of it is.
-/

set_option autoImplicit false

namespace SampleMethods.Script

/-- The context inside the middle part of a conditional expression. -/
def Context.beforeColon (context : Context) : Context :=
  { context with inConditional := true, awaitsColon := true, allowIn := true }

/-- The context inside the last part of a conditional expression. -/
def Context.behindColon (context : Context) : Context :=
  { context with inConditional := true, awaitsColon := false }

namespace Parser

/-- The node that starts where the first part starts and ends with the token before the
cursor. -/
def extend (label : Label) (first : Node) (others : List Node) : Parser Node :=
  finish label first.span.start (first :: others)

/-- The binary operator that comes next, and how tightly it binds. -/
def binaryOperator : Parser (Option (String × Nat)) := do
  match ← token with
  | .sign sign => return sign.precedence.map fun precedence => (sign.spelling, precedence)
  | .word "in" true => return if (← read).allowIn then some ("in", 7) else none
  | .word "instanceof" true => return some ("instanceof", 7)
  | _ => return none

/-- Whether an expression may start with the next token. -/
def startsExpression : Parser Bool := do
  match ← token with
  | .word text _ =>
    return !Identifier.isReserved text ||
      ["this", "super", "null", "true", "false", "function", "class", "new", "import", "delete",
       "typeof", "void", "await", "yield"].contains text
  | .number _ | .bigInt _ | .string _ | .regExp _ => return true
  | .sign sign =>
    return [.backquote, .leftParen, .leftBracket, .leftBrace, .plus, .minus, .tilde, .not,
      .increment, .decrement, .less, .hash].contains sign
  | _ => return false

end Parser

namespace Grammar

open Script.Parser

/-! ## Binary operators -/

/-- Reads the operators that follow an operand, as long as they bind more tightly than
the bound. `rounds` bounds the number of operators. -/
def binaryFrom (grammar : Grammar) : Nat → Node → Nat → Parser Node
  | 0, _, _ => throw .nestedTooDeeply
  | rounds + 1, left, bound => do
    let sameLine := (← hasTypes) && !(← atNewline)
    if sameLine && bound < 7 && (← isAtWord "as") then
      if (← peek).isWord "const" then
        advance
        advance
        let node ← extend (.typeAssertion "const") left []
        return ← grammar.binaryFrom rounds node bound
      advance
      let type ← grammar.type
      let node ← extend (.typeAssertion "as") left [type]
      return ← grammar.binaryFrom rounds node bound
    if sameLine && (← isAtWord "satisfies") then
      advance
      let type ← grammar.type
      let node ← extend (.typeAssertion "satisfies") left [type]
      return ← grammar.binaryFrom rounds node bound
    match ← binaryOperator with
    | none => return left
    | some (operator, precedence) =>
      if precedence ≤ bound then
        return left
      if operator == "**" then
        match left.label with
        | .unary _ | .await => throw .unaryBeforePower
        | _ => pure ()
      advance
      let operand ← grammar.unary
      let inner := if operator == "**" then precedence - 1 else precedence
      let right ← grammar.binaryFrom rounds operand inner
      let node ← extend (.binary operator) left [right]
      grammar.binaryFrom rounds node bound

/-- Reads an operand together with the binary operators behind it. -/
def binaryExpression (grammar : Grammar) : Parser Node := do
  let start ← here
  let operand ←
    match ← recover grammar.unary with
    | .ok operand => pure operand
    | .error error =>
      if (← binaryOperator).isSome then
        finish .invalid start []
      else
        throw error
  if operand.isArrow then
    return operand
  grammar.binaryFrom (← get).limit operand 0

/-! ## Conditional expressions and assignments -/

/-- Reads the two last parts of a conditional expression, whose question mark has been
read. -/
def conditionalFrom (grammar : Grammar) (test : Node) : Parser Node := do
  let positive ← within Context.beforeColon grammar.assignment
  expect .colon
  let negative ← within Context.behindColon grammar.assignment
  extend .conditional test [positive, negative]

/-- Reads an operand of an assignment. -/
def conditionalExpression (grammar : Grammar) : Parser Node := do
  let test ← grammar.binaryExpression
  if test.isArrow then
    return test
  if ← eat .question then
    grammar.conditionalFrom test
  else
    return test

/-- Reads the assignment operator that follows a target, and the value, if there are any. -/
def assignmentFrom (grammar : Grammar) (left : Node) : Parser Node := do
  match ← token with
  | .sign sign =>
    if sign.isAssignment then
      let target ← ofExcept (left.asAssignmentTarget (sign == .assign))
      advance
      let value ← grammar.assignment
      extend (.assignment sign.spelling) target [value]
    else
      return left
  | _ => return left

/-- Whether the expression can be no target whatever sign follows it. -/
def isOperation (node : Node) : Bool :=
  match node.label with
  | .conditional | .binary _ | .unary _ | .update .. => true
  | _ => false

/-- Reads `yield` and the value that it hands out. -/
def yieldExpression (grammar : Grammar) : Parser Node := do
  let start ← here
  advance
  if (← read).inParameters then
    throw .yieldInParameters
  let continues :=
    !(← isAtStatementEnd) &&
      ((← isAtAny [.times, .divide, .divideAssign]) || (← startsExpression))
  if continues then
    let delegates ← eat .times
    let value ← grammar.assignment
    finish (.yield delegates) start [value]
  else
    finish (.yield false) start []

/-- Reads an assignment, an arrow function or an operand of an assignment. -/
def plainAssignment (grammar : Grammar) : Parser Node := do
  if (← read).inGenerator && (← isAtWord "yield") then
    return ← grammar.yieldExpression
  let start ← here
  let mayBeArrow :=
    match ← token with
    | .word text _ => Identifier.isIdentifierToken text || text == "yield"
    | .sign .leftParen => true
    | _ => false
  modify fun cursor => { cursor with arrowStart := if mayBeArrow then some start else none }
  let left ← grammar.conditionalExpression
  if left.isArrow || isOperation left then
    return left
  grammar.assignmentFrom left

/-- Whether the type parameters that come next can be told from a markup element: the
first of them has a constraint, or a comma behind it. -/
def marksTypeParameters (grammar : Grammar) : Parser Bool :=
  foresees do
    advance
    let parameter ← grammar.typeParameter
    return !parameter.parts.isEmpty || (← isAt .comma)

/-- Reads an arrow function with type parameters, if there is one. -/
def genericArrow? (grammar : Grammar) : Parser (Option Node) := do
  let start ← here
  attempt <| within Context.insideBrackets do
    let typeParameters ← grammar.typeParameters
    match ← grammar.plainAssignment with
    | .mk (.arrow asynchronous) span parts =>
      return some (.mk (.arrow asynchronous) ⟨start, span.stop⟩ (typeParameters ++ parts))
    | _ => unexpected "("

/-- Reads an assignment. Where markup and types are both allowed, an opening angle bracket
starts a markup element if one can be read, and type parameters otherwise. -/
def assignmentExpression (grammar : Grammar) : Parser Node := do
  if !(← hasTypes) || !(← isAt .less) then
    return ← grammar.plainAssignment
  if ← hasMarkup then
    if let some node ← attempt (return some (← grammar.plainAssignment)) then
      return node
  if (← peek).isAnyWord && (!(← hasMarkup) || (← grammar.marksTypeParameters)) then
    if let some node ← grammar.genericArrow? then
      return node
  grammar.plainAssignment

/-- Reads assignments with commas between them. -/
def sequenceExpression (grammar : Grammar) : Parser Node := do
  let first ← grammar.assignment
  let others ← collect do
    if ← eat .comma then
      return some (← grammar.assignment)
    return none
  if others.isEmpty then
    return first
  else
    extend .sequence first others

/-! ## Unary operators -/

/-- Reads `await` and its operand. Where no operand can follow, the word is a name. -/
def awaitExpression (grammar : Grammar) : Parser Node := do
  let start ← here
  advance
  if ← isAt .times then
    throw .awaitStar
  let ends := (← isAtStatementEnd) || (← isAtAny [.rightParen, .rightBracket, .comma])
  if ends && !(← read).inAsync then
    finish (.reference "await") start []
  else
    let operand ← grammar.unary
    finish .await start [operand]

/-- The unary operator that comes next, if one does. -/
def unaryOperator? : Parser (Option String) := do
  match ← token with
  | .sign .plus => return some "+"
  | .sign .minus => return some "-"
  | .sign .tilde => return some "~"
  | .sign .not => return some "!"
  | .word "delete" true => return some "delete"
  | .word "void" true => return some "void"
  | .word "typeof" true => return some "typeof"
  | _ => return none

/-- Reads a type in angle brackets and the operand that is said to have it. -/
def typeAssertion (grammar : Grammar) (start : Nat) : Parser Node := do
  if ← eatWord "const" then
    expectGreater
    let operand ← grammar.unary
    finish (.typeAssertion "<const>") start [operand]
  else
    let type ← grammar.type
    expectGreater
    let operand ← grammar.unary
    finish (.typeAssertion "<>") start [type, operand]

/-- Reads an operand with the sign that may follow it. -/
def postfixExpression (grammar : Grammar) : Parser Node := do
  let operand ← grammar.leftHandSide
  if operand.isArrow || (← atNewline) then
    return operand
  if ← eat .increment then
    extend (.update "++" false) operand []
  else if ← eat .decrement then
    extend (.update "--" false) operand []
  else
    return operand

/-- Reads an operand with the unary operators before it. -/
def unaryExpression (grammar : Grammar) : Parser Node := do
  let start ← here
  if ← (not <$> hasMarkup) <&&> hasTypes <&&> eat .less then
    return ← grammar.typeAssertion start
  if (← isAt .increment) || (← isAt .decrement) then
    let operator := if ← isAt .increment then "++" else "--"
    advance
    let operand ← grammar.unary
    return ← finish (.update operator true) start [operand]
  if let some operator ← unaryOperator? then
    advance
    let operandStart ← here
    let operand ←
      match ← recover grammar.unary with
      | .ok operand => pure operand
      | .error _ => finish .invalid operandStart []
    return ← finish (.unary operator) start [operand]
  if ← isAtWord "await" then
    grammar.awaitExpression
  else
    grammar.postfixExpression

end Grammar

end SampleMethods.Script
