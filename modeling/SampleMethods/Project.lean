import SampleMethods.Config.Discovery
import SampleMethods.FileTree.Search
import SampleMethods.Source

/-!
# Projects

The analysis of a file or of all source files below a directory. A file that
cannot be read or parsed is left out, and a remark says so; it never ends the
analysis of the other files.
-/

set_option autoImplicit false

namespace SampleMethods.Project

/-! ## Source files -/

/-- Whether the path names a source file of a known dialect. -/
def isSource (path : Path) : Bool :=
  (Script.Dialect.ofPath? path).isSome

/-- The source files at and below a path, in the order of their paths. -/
def sourceFiles (tree : FileTree) (path : Path) : Except Failure (List Path) :=
  tree.search isSource path

/-- What an analysis is asked to do in another way than the settings say. -/
structure Overrides where
  strategy : Option Strategy
  regionTags : Option Bool
deriving DecidableEq, Repr

/-- Nothing is asked for. -/
def Overrides.none : Overrides :=
  ⟨.none, .none⟩

/-- Who gives a strategy alone asks for nothing else. -/
instance : Coe (Option Strategy) Overrides where
  coe strategy := ⟨strategy, .none⟩

/-- How files are analysed: as asked, or else as the settings say, or else by default. -/
def options (overrides : Overrides) (settings : Option Settings) : Source.Options where
  strategy := (overrides.strategy.or (settings.map (·.strategy))).getD .auto
  regionTags := (overrides.regionTags.or (settings.map (·.regionTags))).getD true

/-- The directory that an analysis of the path is about. -/
def rootOf (tree : FileTree) (path : Path) : Path :=
  if tree.isFile path then path.parent?.getD path else path

/-- Whether the settings let a source file through that is found at or below a path. -/
def isSelected (tree : FileTree) (settings : Option Settings) (path file : Path) : Bool :=
  match settings with
  | some settings => settings.includes (settings.relativePath file (rootOf tree path))
  | none => true

/-- The source files that the settings let through. -/
def selectedFiles (tree : FileTree) (settings : Option Settings) (path : Path) :
    Except Failure (List Path) := do
  return (← sourceFiles tree path).filter (isSelected tree settings path)

/-! ## Analyses -/

/-- The methods of the source file at a path. -/
def analyzeFile (tree : FileTree) (options : Source.Options) (path : Path) :
    Except Failure (List Method) := do
  let text ← tree.readTextFor ("Failed to read file: " ++ path.toString) path
  Source.analyze options text.toList path.toString

/-- What is to be said about the analysis of the source file at a path. -/
def fileRemarks (tree : FileTree) (options : Source.Options) (path : Path) : List Remark :=
  match tree.readText path with
  | .ok text => Source.remarks options text.toList path.toString
  | .error _ => []

/-- The methods of the files that can be analysed. -/
def methodsIn (tree : FileTree) (options : Source.Options) (files : List Path) : List Method :=
  files.flatMap fun file => (analyzeFile tree options file).toOption.getD []

/-- The methods of all source files at and below a path that the settings let through. -/
def analyze (tree : FileTree) (path : Path) (overrides : Overrides) (settings : Option Settings) :
    Except Failure (List Method) := do
  let files ← selectedFiles tree settings path
  return Method.sort (methodsIn tree (options overrides settings) files)

/-- The files that cannot be analysed, and why. -/
def failures (tree : FileTree) (options : Source.Options) (files : List Path) :
    List (Path × Failure) :=
  files.filterMap fun file =>
    match analyzeFile tree options file with
    | .ok _ => none
    | .error failure => some (file, failure)

/-- What is to be said about an analysis of files. -/
def remarksOn (tree : FileTree) (options : Source.Options) (files : List Path) : List Remark :=
  let failures := failures tree options files
  [.info .project ("analyzing " ++ toString files.length ++ " file(s) with the " ++ options.strategy.name ++
    " strategy")] ++
    files.flatMap (fileRemarks tree options) ++
    failures.map (fun (file, failure) =>
      .warning .project ("skipping file " ++ file.toString ++ ": " ++ failure.message)) ++
    if failures.isEmpty then []
    else [.warning .project ("skipped " ++ toString failures.length ++ " file(s) due to analysis errors")]

/-- What is to be said about an analysis. Nothing is where the files cannot be found. -/
def remarks (tree : FileTree) (path : Path) (overrides : Overrides) (settings : Option Settings) :
    List Remark :=
  match selectedFiles tree settings path with
  | .ok files => remarksOn tree (options overrides settings) files
  | .error _ => []

end SampleMethods.Project
