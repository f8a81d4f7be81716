/-!
# Syntax trees

A script is a tree of nodes. A node has a label, which says what construct it
is and holds its names, operators and literal text, a span of the source, and
its parts in source order. Parentheses keep a node of their own.

A span is a pair of positions, the second one just behind the last character.
Functions that ask about the content of a tree recurse over nodes and lists of
nodes together, so every one of them is structural.
-/

set_option autoImplicit false

namespace SampleMethods.Script

/-- A stretch of the source: the position of its first character and the position
behind its last one. -/
structure Span where
  start : Nat
  stop : Nat
deriving DecidableEq, Repr, Inhabited

/-- What a node is, apart from its parts. -/
inductive Label where
  -- Statements
  | functionDeclaration (name : String)
  | classDeclaration (name : String)
  | variableDeclaration (keyword : String)
  | usingDeclaration (awaited : Bool)
  | interfaceDeclaration (name : String)
  | typeDeclaration (name : String)
  | enumDeclaration (name : String)
  | namespaceDeclaration (name : String)
  | block
  | emptyStatement
  | debuggerStatement
  | withStatement
  | returnStatement
  | labeledStatement (label : String)
  | breakStatement (label : Option String)
  | continueStatement (label : Option String)
  | ifStatement
  | switchStatement
  | throwStatement
  | tryStatement
  | whileStatement
  | doWhileStatement
  | forStatement
  | forInStatement
  | forOfStatement (awaited : Bool)
  | expressionStatement
  -- Module declarations
  | importDeclaration (source : String)
  | exportDeclaration (source : String)
  -- Parts of statements
  | declarator
  | switchCase
  | catchClause
  | binding (name : String)
  | objectPattern
  | arrayPattern
  | defaultPattern
  | restPattern
  | parameters
  | hole
  -- Functions and classes
  | function (asynchronous generator : Bool)
  | arrow (asynchronous : Bool)
  /-- A class: what it extends and implements, and its body. -/
  | classValue
  | classBody
  | classMember (modifiers : String)
  | method
  | getter
  | setter
  -- Expressions
  | reference (name : String)
  | literal (text : String)
  | template (pieces : List String)
  | taggedTemplate (pieces : List String)
  | arrayLiteral
  | objectLiteral
  | shorthand (name : String)
  | property
  | key (name : String)
  | literalKey (text : String)
  | computedKey
  | spread
  | parentheses
  | sequence
  | call
  | optionalCall
  /-- An application of `new`, with or without arguments. -/
  | construct (applied : Bool)
  | member (name : String)
  | computedMember
  | optionalMember (name : String)
  | optionalComputedMember
  | this
  | super
  | importTarget
  | metaProperty (name : String)
  | privateName (name : String)
  | unary (operator : String)
  | update (operator : String) (leading : Bool)
  | binary (operator : String)
  | assignment (operator : String)
  | conditional
  | yield (delegate : Bool)
  | await
  | nonNull
  | typeAssertion (keyword : String)
  | instantiation
  /-- An expression that was passed over because it is none. -/
  | invalid
  -- Markup
  | element (name : String)
  | fragment
  | attribute (name : String)
  | markupText (text : String)
  | embedded
  -- Types
  | type (form : String)
deriving DecidableEq, Repr, Inhabited

/-- A construct of a script. -/
inductive Node where
  | mk (label : Label) (span : Span) (parts : List Node)
deriving Repr, Inhabited

namespace Node

/-- What the node is. -/
def label : Node → Label
  | mk label _ _ => label

/-- Where the node stands. -/
def span : Node → Span
  | mk _ span _ => span

/-- The nodes that the node is made of, in source order. -/
def parts : Node → List Node
  | mk _ _ parts => parts

/-- The node without the parentheses around it, however many there are. -/
def withoutParentheses : Node → Node
  | mk .parentheses _ [inner] => inner.withoutParentheses
  | node => node

/-- Whether the node is a function or arrow in any number of parentheses. -/
def isFunctionValue : Node → Bool
  | mk (.function ..) _ _ => true
  | mk (.arrow _) _ _ => true
  | mk .parentheses _ [inner] => inner.isFunctionValue
  | _ => false

/-- The statements of the body of a function, if it has one. -/
def functionBody? : Node → Option (List Node)
  | mk (.function ..) _ [_, mk .block _ statements] => some statements
  | _ => none

/-- The name, the function and the body of a function declaration that has a body. -/
def definedFunction? : Node → Option (String × Node × List Node)
  | mk (.functionDeclaration name) _ [function] =>
    function.functionBody?.map fun body => (name, function, body)
  | _ => none

end Node

/-- A script: its items in source order. -/
structure Module where
  items : List Node
deriving Repr, Inhabited

namespace Module

/-- Imports and exports are items of a module but no statements. -/
def isStatement (item : Node) : Bool :=
  match item.label with
  | .importDeclaration _ | .exportDeclaration _ => false
  | _ => true

/-- The statements of a module, in source order. -/
def statements (script : Module) : List Node :=
  script.items.filter isStatement

end Module

end SampleMethods.Script
