import SampleMethods.Failure
import SampleMethods.FileTree.Change

/-!
# Output files

A result is written to a file in one move: it goes to a file with another
extension first, which then takes the place of the file. Directories above it
are made when they are missing. What was done before a failure stays.
-/

set_option autoImplicit false

namespace SampleMethods.CommandLine

/-- What changes a file tree or fails, with the tree as it is then. -/
abbrev Act := EStateM Failure FileTree

/-- A step that is one change of the file tree. -/
def step (name : String) (change : FileTree.Change Unit) : Act Unit := fun tree =>
  match change tree with
  | .ok _ after => .ok () after
  | .error error after => .error ⟨[name], .file error⟩ after

/-- Makes the directories above a path that are missing. -/
def makeParents (path : Path) : Act Unit := do
  if let some parent := path.parent? then
    unless parent.text.isEmpty do
      step ("Failed to create directory: " ++ parent.toString)
        (FileTree.Change.makeDirectories parent)

/-- The file that a result goes to first. -/
def temporaryPath (path : Path) : Path :=
  path.withExtension (Text.bytes "tmp")

/-- Writes a result to a file. -/
def writeOutput (path : Path) (text : String) : Act Unit := do
  makeParents path
  let temporary := temporaryPath path
  step ("Failed to write temporary file: " ++ temporary.toString)
    (FileTree.Change.writeText temporary text)
  step ("Failed to rename temporary file to: " ++ path.toString)
    (FileTree.Change.moveFile temporary path)

end SampleMethods.CommandLine
