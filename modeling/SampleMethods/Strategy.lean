import SampleMethods.Json.Decoder
import SampleMethods.Wrapper

/-!
# Strategies

A sample is a flat list of statements, or wrapped in an outer function. A
strategy says which of the two layouts are tried, and in which order; the first
layout that gives any methods decides.
-/

set_option autoImplicit false

namespace SampleMethods

/-- A way to find the methods of a module. -/
inductive Layout where
  /-- Methods that the top of the module declares and invokes. -/
  | direct
  /-- Methods that the first function of the module declares and invokes. -/
  | wrapped
deriving DecidableEq, Repr

namespace Layout

/-- The name of a layout in remarks. -/
def name : Layout → String
  | direct => "direct-invocation"
  | wrapped => "wrapped-direct-invocation"

/-- The methods of a module that has the layout. -/
def extract (layout : Layout) (text : List Char) (sourcePath : String) (script : Script.Module) :
    List Method :=
  match layout with
  | direct => Invocation.extract text sourcePath script.statements
  | wrapped => Wrapper.extract text sourcePath script

/-- What is to be said about a module that is taken to have the layout. -/
def remarks (layout : Layout) (sourcePath : String) (script : Script.Module) : List Remark :=
  match layout with
  | direct => []
  | wrapped => Wrapper.remarks script sourcePath

end Layout

/-- Which layouts to try on a module. -/
inductive Strategy where
  /-- Wrapped samples first, and flat ones when nothing was found. -/
  | auto
  | direct
  | wrapped
deriving DecidableEq, Repr, Inhabited

namespace Strategy

/-- Every strategy, once. -/
def all : List Strategy :=
  [auto, direct, wrapped]

/-- The name of a strategy. -/
def name : Strategy → String
  | auto => "auto"
  | direct => "direct"
  | wrapped => "wrapped"

/-- The strategy with a name. -/
def ofName? (name : String) : Option Strategy :=
  all.find? fun strategy => strategy.name == name

/-- Strategies in documents. -/
def decoder : Json.Decoder Strategy :=
  .choice (all.map fun strategy => (strategy.name, strategy))

/-- Says that no strategy has the name. -/
def unknownMessage (name : String) : String :=
  "unknown parse strategy '" ++ name ++ "' (expected auto, direct, or wrapped)"

/-- The layouts that a strategy tries, in order. -/
def layouts : Strategy → List Layout
  | auto => [.wrapped, .direct]
  | direct => [.direct]
  | wrapped => [.wrapped]

/-- The methods that the first of the layouts with any gives. -/
def extractFirst (text : List Char) (sourcePath : String) (script : Script.Module) :
    List Layout → List Method
  | [] => []
  | layout :: layouts =>
    match layout.extract text sourcePath script with
    | [] => extractFirst text sourcePath script layouts
    | methods => methods

/-- The methods of a module. -/
def extract (strategy : Strategy) (text : List Char) (sourcePath : String)
    (script : Script.Module) : List Method :=
  extractFirst text sourcePath script strategy.layouts

/-- What is to be said while the layouts are tried. -/
def remarksOf (text : List Char) (sourcePath : String) (script : Script.Module) :
    List Layout → List Remark
  | [] => []
  | layout :: layouts =>
    layout.remarks sourcePath script ++
      match layout.extract text sourcePath script with
      | [] => remarksOf text sourcePath script layouts
      | methods =>
        [.debug .strategy (sourcePath ++ ": " ++ layout.name ++ " found " ++ toString methods.length ++
          " method(s)")]

/-- What is to be said about the search for the methods of a module. -/
def remarks (strategy : Strategy) (text : List Char) (sourcePath : String)
    (script : Script.Module) : List Remark :=
  remarksOf text sourcePath script strategy.layouts

end Strategy

end SampleMethods
