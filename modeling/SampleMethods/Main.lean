import SampleMethods.CommandLine
import SampleMethods.DataFile.TestFile
import SampleMethods.FileTree.Difference
import SampleMethods.Glob.Compiler

/-!
# The program

Reads the part of the disk that a request is about, runs the request on it, and
writes back what the run changed.
-/

set_option autoImplicit false

namespace SampleMethods.Program

/-- A path of the disk. -/
def onDisk (path : Path) : IO.FS.DirEntry :=
  ⟨"/", path.toString⟩

/-- The result of an action on the disk, or nothing if it fails. -/
def attempt {α : Type} (action : IO α) : IO (Option α) := do
  try
    return some (← action)
  catch _ =>
    return none

/-- The text of a file, or nothing for content that is no text. -/
def textAt (place : IO.FS.DirEntry) : IO (Option String) := do
  return (← attempt (IO.FS.readBinFile place.path)).bind String.fromUTF8?

/-- Whether the program may look into a file with the name. -/
def isOfInterest (path : Path) : Bool :=
  let names := Config.packageName :: Config.fileNames
  Project.isSource path || DataFile.isDataFile path ||
    names.any fun name => path.fileName? == some (Text.bytes name)

mutual

/-- What stands at a place of the disk, with all that is below it. A link at the place is
followed or not. -/
partial def entryAt (place : IO.FS.DirEntry) (follow : Bool) : IO (Option FileTree.Entry) := do
  let kind ← attempt do
    return (← if follow then place.path.metadata else place.path.symlinkMetadata).type
  match kind with
  | some .dir => return some (.directory (← entriesAt place))
  | some .file =>
    if follow || isOfInterest (.ofString place.fileName) then
      return some (.file (← textAt place))
    else return some (.file none)
  | some .symlink =>
    let target := (← attempt (IO.FS.realPath place.path)).map (·.toString)
    return some (.link (.ofString (target.getD "")))
  | _ => return none

/-- What stands in a directory of the disk, but for what is in directories that are left
out. -/
partial def entriesAt (place : IO.FS.DirEntry) : IO (List (Text.Bytes × FileTree.Entry)) := do
  let found := ((← attempt place.path.readDir).getD #[]).toList
  found.filterMapM fun inner => do
    let name := Text.bytes inner.fileName
    let skipped := FileTree.isSkipped name && (← inner.path.isDir)
    let entry ← if skipped then pure (some (.directory [])) else entryAt inner false
    return entry.map fun entry => (name, entry)

end

/-- The tree after a change, or before it if it fails. -/
def changed (change : FileTree.Change Unit) (tree : FileTree) : FileTree :=
  match change tree with
  | .ok _ after => after
  | .error .. => tree

/-- The tree with an entry at a path, and the directories above it. -/
def plant (tree : FileTree) (path : Path) (entry : FileTree.Entry) : FileTree :=
  let tree := (path.parent?.map fun parent =>
    changed (FileTree.Change.makeDirectories parent) tree).getD tree
  match tree.locate false path, path.text with
  | .ok (.found (name :: directory) _), _ | .ok (.absent directory name), _ =>
    tree.withEntry directory name (some entry)
  | _, _ => tree

/-- The tree with what decides about a directory of the disk: its repository and its
configuration. -/
def plantDirectory (tree : FileTree) (directory : Path) : IO FileTree := do
  unless ← (onDisk directory).path.isDir do
    return tree
  let names := ".git" :: Config.packageName :: Config.fileNames
  let tree := changed (FileTree.Change.makeDirectories directory) tree
  names.foldlM
    (fun tree name => do
      let path := directory.child (Text.bytes name)
      if tree.hasEntry path then
        return tree
      if name == ".git" then
        return if ← (onDisk path).path.pathExists then plant tree path (.directory []) else tree
      return ((← entryAt (onDisk path) true).map (plant tree path)).getD tree)
    tree

/-- A path and those above it, so many of them. -/
def upwards : Nat → Path → List Path
  | 0, _ => []
  | count + 1, path => path :: (path.parent?.map (upwards count)).getD []

/-- The tree with all that is at and below a path of the disk, and with the directories above
it. -/
def plantAll (tree : FileTree) (path : Path) : IO FileTree := do
  let tree := ((← entryAt (onDisk path) true).map (plant tree path)).getD tree
  (upwards (path.text.length + 1) path).foldlM plantDirectory tree

/-- The tree with an entry at a path, if there is something on the disk. -/
def plantMark (tree : FileTree) (path : Path) : IO FileTree := do
  if tree.hasEntry path || !(← (onDisk path).path.pathExists) then
    return tree
  return plant tree path
    (if ← (onDisk path).path.isDir then .directory [] else .file none)

/-- The paths that a request is about, and whether what is below each of them matters. -/
def pathsOf : CommandLine.Task → List (Path × Bool)
  | .analyze request =>
    (request.path, true) :: (request.config.toList ++ request.output.toList).map (·, false)
  | .validateData request =>
    (request.path, true) :: (request.config.toList ++ request.output.toList).map (·, false)
  | .checkConfig path | .showConfig path => path.toList.map (·, false)

/-- The part of the disk that a request is about. -/
def snapshot (workingDirectory : Path) (request : CommandLine.Request) : IO FileTree := do
  let names := (Text.cutAt Text.slash workingDirectory.text).filter fun name => !name.isEmpty
  let empty : FileTree :=
    { root := .directory [], workingDirectory := names.reverse, refuses := FileTree.refuseLong }
  let paths := (pathsOf request.task).map fun (path, whole) =>
    (CommandLine.absolutePath empty path, whole)
  let tree ← plantDirectory empty workingDirectory
  let tree ← paths.foldlM
    (fun tree (path, whole) => do
      if whole || !(← (onDisk path).path.isDir) then plantAll tree path
      else plantDirectory tree path)
    tree
  let tests := paths.flatMap fun (path, whole) =>
    if whole then DataFile.testPaths tree path else []
  tests.foldlM plantMark tree

/-- Does on the disk what a run did. -/
def apply (difference : FileTree.Difference) : IO Unit := do
  match difference with
  | .directory path => IO.FS.createDirAll path.toString
  | .file path text => IO.FS.writeFile path.toString text
  | .removed path => IO.FS.removeFile path.toString

/-- Shows the end of a run. -/
def present (ending : CommandLine.Ending) : IO UInt32 := do
  IO.print ending.output
  IO.eprint ending.errors
  return ending.code.toUInt32

/-- Runs the program on its arguments. -/
def run (arguments : List String) : IO UInt32 := do
  match CommandLine.requestOf arguments with
  | .error _ =>
    present (CommandLine.run arguments { root := .directory [], workingDirectory := [] }).1
  | .ok request =>
    let workingDirectory := Path.ofString (← IO.currentDir).toString
    let tree ← snapshot workingDirectory request
    let (ending, after) := CommandLine.perform request tree
    (FileTree.differences tree after).forM apply
    present ending

end SampleMethods.Program

/-- Runs the program on its arguments. -/
def main (arguments : List String) : IO UInt32 :=
  SampleMethods.Program.run arguments
