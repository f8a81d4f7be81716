import SampleMethods.CommandLine.Output
import SampleMethods.CommandLine.Request
import SampleMethods.DataFile.Validation

/-!
# The command line

A run of the program takes its arguments and a file tree, and gives what it
prints, its exit code and the file tree afterwards. The exit code is 0 for
success, 1 for a failure or for data files that are not valid, and 2 for
arguments that make no request.
-/

set_option autoImplicit false

namespace SampleMethods.CommandLine

/-! ## Places -/

/-- The path seen from the root. -/
def absolutePath (tree : FileTree) (path : Path) : Path :=
  if path.isAbsolute then path else tree.workingPath.join path

/-- The first one of a directory and the directories its path goes through that has a
repository in it. -/
def climb (tree : FileTree) : Nat → Path → Option Path
  | 0, _ => none
  | rounds + 1, directory =>
    if tree.hasEntry (directory.child (Text.bytes ".git")) then some directory
    else directory.parent?.bind (climb tree rounds)

/-- The directory that a path names, or that the file it names is in. -/
def directoryOf (tree : FileTree) (path : Path) : Path :=
  if tree.isFile path then path.parent?.getD path else path

/-- The root of the repository that a path is in. -/
def repositoryRoot? (tree : FileTree) (path : Path) : Option Path :=
  let directory := directoryOf tree path
  climb tree (directory.text.length + 1) directory

/-- The directory whose configuration is used for a path. -/
def projectRoot (tree : FileTree) (path : Path) : Path :=
  (repositoryRoot? tree path).getD (directoryOf tree path)

/-! ## Tasks -/

/-- What a task that does not fail prints, and whether all is well. -/
structure Outcome where
  text : String
  success : Bool

/-- The settings for a task. -/
def settingsFor [Glob.Compiler] (tree : FileTree) (root : Path) (file : Option Path) :
    Except Failure Settings :=
  Failure.during "failed to load configuration" (Settings.load tree root file)

/-- A result that is printed, or written to a file. -/
def deliver (output : Option Path) (text : String) (success : Bool) : Act Outcome := do
  match output with
  | some path =>
    writeOutput path text
    return ⟨"", success⟩
  | none => return ⟨text, success⟩

/-- The settings for an analysis of a path, which has to be there. -/
def analysisSettings [Glob.Compiler] (tree : FileTree) (request : AnalysisRequest) :
    Except Failure Settings := do
  let path := absolutePath tree request.path
  unless tree.hasEntry path do
    throw (.because ("Path does not exist: " ++ path.toString))
  settingsFor tree (projectRoot tree path) (request.config.map (absolutePath tree))

/-- What an analysis is asked to do in another way than the settings say. -/
def overrides (request : AnalysisRequest) : Project.Overrides :=
  ⟨request.strategy, if request.withoutTags then some false else none⟩

/-- The report of an analysis. A list has a line break at its end. -/
def reportText (form : Report.Form) (methods : List Method) : String :=
  form.render methods ++
    match form with
    | .list => "\n"
    | .table | .lines => ""

/-- Analyses a path. -/
def analyze [Glob.Compiler] (request : AnalysisRequest) : Act Outcome := do
  let tree ← get
  let settings ← ofExcept (analysisSettings tree request)
  let methods ← ofExcept
    (Project.analyze tree (absolutePath tree request.path) (overrides request) (some settings))
  deliver request.output (reportText request.form methods) true

/-- The settings for a validation of data files below a path, which has to be a directory. -/
def validationSettings [Glob.Compiler] (tree : FileTree) (request : ValidationRequest) :
    Except Failure Settings := do
  let path := absolutePath tree request.path
  unless tree.isDirectory path do
    throw (.because ("Not a directory: " ++ path.toString))
  settingsFor tree ((repositoryRoot? tree path).getD path) (request.config.map (absolutePath tree))

/-- What a validation is asked to do in another way than the settings say. -/
def validationOverrides (request : ValidationRequest) : Project.Overrides :=
  ⟨request.strategy, some true⟩

/-- Validates the data files below a path. -/
def validateData [Glob.Compiler] (request : ValidationRequest) : Act Outcome := do
  let tree ← get
  let settings ← ofExcept (validationSettings tree request)
  let path := absolutePath tree request.path
  let inventory ← ofExcept
    (Inventory.collect tree path (validationOverrides request) (some settings))
  let report ← ofExcept (DataFile.validate tree path inventory)
  deliver request.output report.render report.isValid

/-- What is said about a configuration that is valid. -/
def validText (settings : Settings) : String :=
  match settings.configPath with
  | some path => "Config valid: " ++ path.toString ++ "\n"
  | none => "No config file found. Using defaults.\n"

/-- What a configuration comes down to, as text. -/
def settingsText (settings : Settings) : String :=
  let source := match settings.configPath with
    | some path => path.toString
    | none => "defaults (no config file found)"
  let tags := if settings.regionTags then "true" else "false"
  let included := if settings.included.isSome then "custom patterns" else "all supported files"
  "Configuration:\n  Source: " ++ source ++ "\n\nExtraction:\n  strategy: " ++
    settings.strategy.name ++ "\n  region_tags: " ++ tags ++ "\n\nFilters:\n  include: " ++
    included ++ "\n"

/-- Tells what a configuration comes down to. -/
def showConfig [Glob.Compiler] (path : Option Path) : Act Outcome := do
  let tree ← get
  let settings ← ofExcept (settingsFor tree tree.workingPath path)
  return ⟨settingsText settings, true⟩

/-! ## Remarks -/

/-- What is to be said about the settings of an analysis. -/
def settingsRemarks (settings : Settings) : List Remark :=
  match settings.configPath with
  | some path => [.info .commandLine ("using config: " ++ path.toString)]
  | none => []

/-- What is to be said about a task. -/
def remarks [Glob.Compiler] (tree : FileTree) : Task → List Remark
  | .analyze request =>
    match analysisSettings tree request with
    | .ok settings =>
      settingsRemarks settings ++
        Project.remarks tree (absolutePath tree request.path) (overrides request) (some settings)
    | .error _ => []
  | .validateData request =>
    match validationSettings tree request with
    | .ok settings =>
      let path := absolutePath tree request.path
      let overrides := validationOverrides request
      let report := do
        DataFile.validate tree path (← Inventory.collect tree path overrides (some settings))
      Inventory.remarks tree path overrides (some settings) ++
        match report with
        | .ok report => report.remarks
        | .error _ => []
    | .error _ => []
  | .checkConfig _ | .showConfig _ => []

/-- The level of the remarks that are shown. -/
def levelFor (verbosity : Nat) : Remark.Level :=
  match verbosity with
  | 0 => .warning
  | 1 => .info
  | _ => .debug

/-! ## Runs -/

/-- The end of a run: its exit code, and what it prints as output and as errors. -/
structure Ending where
  code : Nat
  output : String
  errors : String
deriving DecidableEq, Repr

/-- The end of a task that may fail. -/
def ending (log : String) (act : Act Outcome) (tree : FileTree) : Ending × FileTree :=
  match act tree with
  | .ok outcome after => (⟨if outcome.success then 0 else 1, outcome.text, log⟩, after)
  | .error failure after => (⟨1, "", log ++ "Error: " ++ failure.report ++ "\n"⟩, after)

/-- The end of a check of a configuration. -/
def checkConfig [Glob.Compiler] (tree : FileTree) (path : Option Path) : Ending :=
  match Settings.load tree tree.workingPath path with
  | .ok settings => ⟨0, validText settings, ""⟩
  | .error failure => ⟨1, "", "Config validation failed: " ++ failure.message ++ "\n"⟩

/-- Does what a request asks for. -/
def perform [Glob.Compiler] (request : Request) (tree : FileTree) : Ending × FileTree :=
  let log := Remark.log (levelFor request.verbosity) (remarks tree request.task)
  match request.task with
  | .analyze request => ending log (analyze request) tree
  | .validateData request => ending log (validateData request) tree
  | .checkConfig path => (checkConfig tree path, tree)
  | .showConfig path => ending log (showConfig path) tree

/-- What arguments the program takes. -/
def usage : String :=
  "Usage:\n" ++
    "  wizard analyze [OPTIONS] <PATH>\n" ++
    "      --format <text|json|jsonl>, --strategy <auto|direct|wrapped>, --no-region-tags,\n" ++
    "      --config <FILE>, --output <FILE>\n" ++
    "  wizard validate-yaml [OPTIONS] <PATH>\n" ++
    "      --strategy <auto|direct|wrapped>, --config <FILE>, --output <FILE>\n" ++
    "  wizard config <validate|show> [--path <FILE>]\n" ++
    "All of them take -v and --verbose, which may be repeated.\n"

/-- Runs the program on its arguments. -/
def run [Glob.Compiler] (arguments : List String) (tree : FileTree) : Ending × FileTree :=
  match requestOf arguments with
  | .ok request => perform request tree
  | .error .help => (⟨0, usage, ""⟩, tree)
  | .error .misuse => (⟨2, "", usage⟩, tree)

end SampleMethods.CommandLine
