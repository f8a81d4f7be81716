import SampleMethods.Method

/-!
# Direct invocations

A method is directly invoked when it is declared in a list of statements and
called by its name from the same list, outside of any nested function. The
calls that count are found by a walk over the trees of the statements that does
not enter functions, classes and the accessors of objects; everything else is
entered, so a call may sit in any expression.

Every candidate stands in the list itself: a function that is declared with a
body, or a variable whose initial value is a function. The first candidate of
a name is the one that is recorded.
-/

set_option autoImplicit false

namespace SampleMethods

open Script

namespace Invocation

/-! ## Calls -/

/-- Whether the walk leaves a construct alone, because what it holds runs elsewhere. -/
def isClosed (label : Label) : Bool :=
  match label with
  | .function .. | .arrow _ | .classValue | .getter | .setter => true
  | _ => false

/-- The name that a construct calls, if it is a call of a plain name. -/
def calledName? (label : Label) (parts : List Node) : Option String :=
  match label, parts with
  | .call, callee :: _ =>
    match callee.withoutParentheses.label with
    | .reference name => some name
    | _ => none
  | _, _ => none

mutual

/-- The names that are called in a construct, in the order of the calls. -/
def calledNames : Node → List String
  | .mk label _ parts =>
    if isClosed label then []
    else (calledName? label parts).toList ++ calledNamesIn parts

/-- The names that are called in a row of constructs. -/
def calledNamesIn : List Node → List String
  | [] => []
  | node :: nodes => calledNames node ++ calledNamesIn nodes

end

/-! ## Candidates -/

/-- A function that a statement declares: its name, and the span of its declaration. -/
structure Candidate where
  name : String
  span : Span
deriving DecidableEq, Repr

/-- The candidate that a declarator makes: a name that is given a function. -/
def candidateOfDeclarator? : Node → Option Candidate
  | .mk .declarator span parts =>
    match parts.head?, parts.getLast? with
    | some (.mk (.binding name) _ _), some value =>
      if value.isFunctionValue then some ⟨name, span⟩ else none
    | _, _ => none
  | _ => none

/-- The candidates that a statement declares. -/
def candidates (statement : Node) : List Candidate :=
  match statement.definedFunction? with
  | some (name, function, _) => [⟨name, function.span⟩]
  | none =>
    match statement with
    | .mk (.variableDeclaration _) _ declarators => declarators.filterMap candidateOfDeclarator?
    | _ => []

/-- The candidates without those whose name comes up before. -/
def firstOfEachName (candidates : List Candidate) : List Candidate :=
  candidates.foldr
    (fun candidate rest => candidate :: rest.filter (·.name != candidate.name)) []

/-! ## Extraction -/

/-- The directly invoked methods of a list of statements, in the order of their
declarations. -/
def extract (text : List Char) (sourcePath : String) (statements : List Node) : List Method :=
  let called := calledNamesIn statements
  let declared := firstOfEachName (statements.flatMap candidates)
  let invoked := declared.filter fun candidate => called.contains candidate.name
  invoked.map fun candidate => Method.ofSpan text sourcePath candidate.name candidate.span

end Invocation

end SampleMethods
