import SampleMethods.Failure
import SampleMethods.FileTree

/-!
# Searching file trees

The files below a path that a test selects, in the order of their paths.
Directories that hold no code of their own are left out, and so are links,
except that the search may start at either. A search fails where the file system
refuses to list a directory that it enters, or to tell what stands there.
-/

set_option autoImplicit false

namespace SampleMethods.FileTree

open Text (Bytes)

/-- The names of directories that hold no code of their own, but for hidden ones. -/
def skippedNames : List String :=
  ["node_modules", "dist", "build", "out", "coverage"]

/-- Whether a directory with the name is left out. A name that is no text is not told apart. -/
def isSkipped (name : Bytes) : Bool :=
  match Text.decode? name with
  | some text => text.head? == some '.' || skippedNames.contains (String.ofList text)
  | none => false

/-- Fails within steps where the file system refuses an operation. -/
def permitFor (tree : FileTree) (steps : List String) (operation : Operation) :
    Except Failure Unit :=
  match tree.refuses operation with
  | some error => .error ⟨steps, .file error⟩
  | none => .ok ()

mutual

/-- Searches the entries of a directory at a path, one after the other. -/
def searchIn (tree : FileTree) (select : Path → Bool) (directory : Path) :
    List (Bytes × Entry) → Except Failure (List Path)
  | [] => return []
  | (name, entry) :: entries => do
    let path := directory.child name
    tree.permitFor [] (.next directory name)
    tree.permitFor ["Failed to read metadata: " ++ path.toString] (.inspect path)
    let found ← searchAt tree select path name entry
    return found ++ (← searchIn tree select directory entries)

/-- Searches an entry with a name, which stands at a path. -/
def searchAt (tree : FileTree) (select : Path → Bool) (path : Path) (name : Bytes) :
    Entry → Except Failure (List Path)
  | .file _ => return if select path then [path] else []
  | .directory entries => do
    if isSkipped name then
      return []
    tree.permitFor ["Failed to read directory: " ++ path.toString] (.list path)
    searchIn tree select path entries
  | .link _ => return []

end

/-- The selected files below a path, in the order of their paths. A path that leads to a file
stands for that file. Where the search starts no name is looked at. -/
def search (tree : FileTree) (select : Path → Bool) (path : Path) :
    Except Failure (List Path) := do
  let found ←
    match tree.entry path with
    | .ok entry => searchAt tree select path [] entry
    | .error _ => pure []
  return found.mergeSort Path.isAtMost

end SampleMethods.FileTree
