import SampleMethods.Config
import SampleMethods.FileTree
import SampleMethods.Json.Reader

/-!
# Where configurations are found

A project has its configuration in a file of its own or in its package file.
The first of these files that is there decides, also when it cannot be read, and
a package file that says nothing about the configuration is passed over.
-/

set_option autoImplicit false

namespace SampleMethods

/-- The text of a file, or the failure of a step that wants it. -/
def FileTree.readTextFor (tree : FileTree) (step : String) (path : Path) : Except Failure String :=
  Failure.during step ((tree.readText path).mapError fun error => .of (.file error))

namespace Config

/-- A step of the search, with the path it is about. -/
def stepAt (step : String) (path : Path) : String :=
  step ++ path.toString

/-- The value that the text of a configuration writes. -/
def ofText (text : String) : Except Failure Config :=
  (decoder.ofText text).mapError fun error => .of (.json error)

/-- The configuration in a file of its own. -/
def readFile (tree : FileTree) (path : Path) : Except Failure Config := do
  let text ← tree.readTextFor (stepAt "failed to read config file: " path) path
  let config ← Failure.during (stepAt "failed to parse config file: " path) (ofText text)
  Failure.during (stepAt "invalid config in: " path) config.validate
  return config

/-- The configuration in a package file, if there is one. -/
def readPackage? (tree : FileTree) (path : Path) : Except Failure (Option Config) := do
  let text ← tree.readTextFor (stepAt "failed to read " path) path
  let package ← Failure.during (stepAt "failed to parse " path)
    ((Json.parse text).mapError fun error => .of (.json error))
  match package.member? "wizard" with
  | none => return none
  | some value =>
    Failure.during (stepAt "invalid wizard config in " path) do
      let config ← (decoder.ofValue value).mapError fun error => .of (.json error)
      config.validate
      return some config

/-- The names of the files that hold nothing but a configuration, in the order in which they
are looked for. -/
def fileNames : List String :=
  [".wizardrc.json", "wizard.config.json"]

/-- The name of the package file. -/
def packageName : String :=
  "package.json"

/-- The configuration of a project, and the path of its file. -/
def discover? (tree : FileTree) (root : Path) : Except Failure (Option (Config × Path)) := do
  let candidates := fileNames.map fun name => root.child (Text.bytes name)
  match candidates.find? tree.hasEntry with
  | some path => return some (← readFile tree path, path)
  | none =>
    let path := root.child (Text.bytes packageName)
    if tree.hasEntry path then
      return (← readPackage? tree path).map fun config => (config, path)
    else return none

end Config

/-- The settings of a project: those of the given file, or else of the configuration that the
project has, or else the defaults. -/
def Settings.load [Glob.Compiler] (tree : FileTree) (root : Path) (file : Option Path) :
    Except Failure Settings := do
  let found : Option (Config × Path) ←
    match file with
    | some path => pure (some (← Config.readFile tree path, path))
    | none => Config.discover? tree root
  match found with
  | some (config, path) =>
    let settings ← config.resolve
    return { settings with configPath := some path }
  | none => Config.empty.resolve

end SampleMethods
