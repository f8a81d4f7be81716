import SampleMethods.Invocation
import SampleMethods.Remark

/-!
# Wrapped samples

Many samples wrap their code in an outer function, so that the arguments of a
command line can be bound to its parameters. The first function that is
defined at the top of a module is the wrapper, and the statements of its body
are looked at as the statements of a flat sample are. What is done with them is
an argument here: `delegateM` hands them to any extractor and gives its result
back as it is.
-/

set_option autoImplicit false

namespace SampleMethods

open Script

/-- A function that is defined at the top of a module. -/
structure Wrapper where
  name : String
  function : Node
  body : List Node

namespace Wrapper

/-- The function that a statement defines with a body, if it does. -/
def ofStatement? (statement : Node) : Option Wrapper :=
  statement.definedFunction?.map fun (name, function, body) => ⟨name, function, body⟩

/-- The functions that are defined at the top of a module. -/
def all (script : Module) : List Wrapper :=
  script.statements.filterMap ofStatement?

/-- The first function that is defined at the top of a module. -/
def first? (script : Module) : Option Wrapper :=
  script.statements.findSome? ofStatement?

/-- What an extractor makes of the body of the wrapper, or nothing where there is no wrapper. The
extractor may have effects of any kind. -/
def delegateM {m : Type → Type} [Monad m] {Result : Type} (script : Module) (sourcePath : String)
    (extract : List Node → String → m (List Result)) : m (List Result) :=
  match first? script with
  | none => pure []
  | some wrapper => extract wrapper.body sourcePath

/-- What an extractor that may fail makes of the body of the wrapper. -/
def delegate {Failure Result : Type} (script : Module) (sourcePath : String)
    (extract : List Node → String → Except Failure (List Result)) :
    Except Failure (List Result) :=
  delegateM script sourcePath extract

/-- Says how many functions at the top of the module are not looked at. -/
def remarks (script : Module) (sourcePath : String) : List Remark :=
  match all script with
  | wrapper :: ignored@(_ :: _) =>
    [.debug .wrapper (sourcePath ++ ": using `" ++ wrapper.name ++ "`, ignoring " ++
      toString ignored.length ++ " later top-level function(s)")]
  | _ => []

/-- The directly invoked methods inside the wrapper. -/
def extract (text : List Char) (sourcePath : String) (script : Module) : List Method :=
  match delegate script sourcePath fun body path =>
      (.ok (Invocation.extract text path body) : Except Empty (List Method)) with
  | .ok methods => methods

end Wrapper

end SampleMethods
