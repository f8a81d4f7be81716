import SampleMethods.FileTree

/-!
# Changing file trees

The operations that change a file tree. Each of them gives the tree as it is
afterwards also when it fails, because an operation that is made of several
steps may fail after some of them.
-/

set_option autoImplicit false

namespace SampleMethods.FileTree

open Text (Bytes slash)

/-- An operation on a file tree. -/
abbrev Change := EStateM FileError FileTree

/-! ## Single entries -/

/-- The entries with another one under a name, or with none. -/
def Entry.put (name : Bytes) (entry : Option Entry) :
    List (Bytes × Entry) → List (Bytes × Entry)
  | [] => (entry.map fun entry => (name, entry)).toList
  | (other, kept) :: rest =>
    if other == name then (entry.map fun entry => (name, entry)).toList ++ rest
    else (other, kept) :: Entry.put name entry rest

/-- The entry with a directory below it changed, which a row of names leads to. -/
def Entry.change (edit : List (Bytes × Entry) → List (Bytes × Entry)) :
    List Bytes → Entry → Entry
  | [], .directory entries => .directory (edit entries)
  | name :: names, .directory entries =>
    .directory (Entry.put name ((entries.lookup name).map (Entry.change edit names)) entries)
  | _, entry => entry

/-- The tree with another entry under a name of the directory at a place, or with none. -/
def withEntry (tree : FileTree) (directory : Place) (name : Bytes) (entry : Option Entry) :
    FileTree :=
  { tree with root := tree.root.change (Entry.put name entry) directory.reverse }

namespace Change

/-- Puts an entry under a name of a directory, or takes it away. -/
def put (directory : Place) (name : Bytes) (entry : Option Entry) : Change Unit :=
  modify fun tree => tree.withEntry directory name entry

/-- What a path leads to. -/
def locate (follow : Bool) (path : Path) : Change Target := do
  ofExcept ((← get).locate follow path)

/-- Fails where the file system refuses an operation. -/
def permit (operation : Operation) : Change Unit := do
  if let some error := (← get).refuses operation then
    throw error

/-- The path without the slashes at its end. -/
def trimmed (path : Path) : Path :=
  ⟨(path.text.reverse.dropWhile (· == slash)).reverse⟩

/-! ## Directories -/

/-- Makes a directory in one that is there. -/
def makeDirectory (path : Path) : Change Unit := do
  match ← locate false (trimmed path) with
  | .found .. => throw .alreadyExists
  | .absent directory name =>
    permit (.makeDirectory path)
    put directory name (some (.directory []))

/-- Makes a directory and those above it that are missing, of which there are at most so
many. -/
def makeDirectoriesUpTo : Nat → Path → Change Unit
  | 0, _ => return
  | rounds + 1, path => do
    if path.text.isEmpty || path.parent?.isNone then
      return
    match ← tryMake path with
    | none => return
    | some .notFound =>
      makeDirectoriesUpTo rounds (path.parent?.getD path)
      if let some error ← tryMake path then
        throw error
    | some error => throw error
where
  /-- Makes a directory, unless there is one. -/
  tryMake (path : Path) : Change (Option FileError) := fun tree =>
    match makeDirectory path tree with
    | .ok () after => .ok none after
    | .error error after =>
      if error != .notFound && after.isDirectory path then .ok none after
      else .ok (some error) after

/-- Makes a directory and those above it that are missing. -/
def makeDirectories (path : Path) : Change Unit :=
  makeDirectoriesUpTo (path.text.length + 1) path

/-! ## Files and links -/

/-- Opens the file at a path for writing. Gives the directory of the file and its name there. A
slash at the end makes the path one of a directory. -/
def openFile (path : Path) : Change (Place × Bytes) := do
  if path.text.getLast? == some slash && !(trimmed path).text.isEmpty then
    discard (locate false (trimmed path))
    throw .isDirectory
  match ← locate true path with
  | .found _ (.directory _) | .found [] _ => throw .isDirectory
  | .found (name :: directory) _ | .absent directory name =>
    permit (.create path)
    return (directory, name)

/-- Puts content into the file at a path, which is made if there is none. -/
def writeContent (path : Path) (content : Option String) : Change Unit := do
  let (directory, name) ← openFile path
  put directory name (some (.file content))

/-- Puts a text into the file at a path, which is made if there is none. Where the text is refused,
the file is there all the same, with what is left in it. -/
def writeText (path : Path) (text : String) : Change Unit := do
  let (directory, name) ← openFile path
  let tree ← get
  match tree.refuses (.fill path text) with
  | none => put directory name (some (.file (some text)))
  | some error =>
    put directory name (some (.file (tree.leaves path text)))
    throw error

/-- Makes a link. -/
def makeLink (path target : Path) : Change Unit := do
  match ← locate false path with
  | .found .. => throw .alreadyExists
  | .absent directory name => put directory name (some (.link target))

/-- Takes away what stands at a path: a file, a link, or a directory with all that is in
it. -/
def remove (path : Path) : Change Unit := do
  match ← locate false path with
  | .found (name :: directory) _ => put directory name none
  | .found [] _ => throw .isDirectory
  | .absent .. => throw .notFound

/-- Moves a file or a link to another path, in the place of a file or a link that may be
there. It may be there already. -/
def moveFile (source path : Path) : Change Unit := do
  match ← locate false source with
  | .found _ (.directory _) | .found [] _ => throw .isDirectory
  | .absent .. => throw .notFound
  | .found (name :: directory) entry =>
    let target ← locate false (trimmed path)
    if path.text.getLast? == some slash then
      throw .notDirectory
    match target with
    | .found _ (.directory _) | .found [] _ => throw .isDirectory
    | .found (newName :: newDirectory) _ | .absent newDirectory newName =>
      permit (.rename source path)
      unless newName :: newDirectory = name :: directory do
        put directory name none
        put newDirectory newName (some entry)

end Change

end SampleMethods.FileTree
