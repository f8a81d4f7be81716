import SampleMethods.Failure
import SampleMethods.Region
import SampleMethods.Script.Parse
import SampleMethods.Strategy

/-!
# Source files

The analysis of one source file: its text is read as a script of the dialect
that its path names, a strategy finds the methods, and the tags of the regions
of the text are attached to them.
-/

set_option autoImplicit false

namespace SampleMethods.Source

/-- How a source file is analysed. -/
structure Options where
  strategy : Strategy
  /-- Whether the tags of regions are attached. -/
  regionTags : Bool
deriving DecidableEq, Repr

/-- The dialect of the file at a path. Files that no dialect claims are plain scripts. -/
def dialectOf (path : String) : Script.Dialect :=
  (Script.Dialect.ofPath? (.ofString path)).getD .javaScript

/-- The script that a source file holds. -/
def parse (text : List Char) (path : String) : Except Failure Script.Module :=
  let dialect := dialectOf path
  match Script.Module.parse dialect text with
  | .ok script => .ok script
  | .error error =>
    .error ⟨["Failed to parse " ++ dialect.name ++ " source file: " ++ path], .script error⟩

/-- The methods of a script that was read from the text of a file. -/
def methodsOf (options : Options) (text : List Char) (path : String) (script : Script.Module) :
    List Method :=
  let methods := options.strategy.extract text path script
  let tagged :=
    if options.regionTags && !methods.isEmpty then
      Region.attach (Region.extract text) methods
    else methods
  Method.sortInFile tagged

/-- The methods of a source file, in the order of their lines. -/
def analyze (options : Options) (text : List Char) (path : String) :
    Except Failure (List Method) :=
  (parse text path).map (methodsOf options text path)

/-- What is to be said about the analysis of a script. -/
def remarksOf (options : Options) (text : List Char) (path : String) (script : Script.Module) :
    List Remark :=
  let methods := options.strategy.extract text path script
  options.strategy.remarks text path script ++
    (if options.regionTags && !methods.isEmpty then Region.remarks text else []) ++
    [.debug .analysis (path ++ ": " ++ toString methods.length ++ " method(s)")]

/-- What is to be said about the analysis of a source file. -/
def remarks (options : Options) (text : List Char) (path : String) : List Remark :=
  match parse text path with
  | .ok script => remarksOf options text path script
  | .error _ => []

end SampleMethods.Source
