import SampleMethods.FileError
import SampleMethods.Path

/-!
# File trees

A file system is a tree of directories with files and symbolic links in them. A
path leads to a place in the tree: from the root or the working directory down,
one step after the other, and through the links on the way. A link at the end is
followed or not, as the question wants it.

Everything that is asked about a path is a question to the entry it leads to, so
a path that leads nowhere is neither a file nor a directory. What the entries allow
may still be refused by the file system where directories are searched and where
something is changed.
-/

set_option autoImplicit false

namespace SampleMethods

/-- What stands under a name in a directory. -/
inductive FileTree.Entry where
  /-- A file: its text, or nothing if its content is no text. -/
  | file (text : Option String)
  | directory (entries : List (Text.Bytes × FileTree.Entry))
  | link (target : Path)
deriving Repr, Inhabited

/-- A place in a tree: the names that lead to it, the innermost one first. -/
abbrev FileTree.Place := List Text.Bytes

/-- What a file system may refuse to do. -/
inductive FileTree.Operation where
  /-- To tell what stands at a path, without following a link there. -/
  | inspect (path : Path)
  /-- To begin the list of a directory. -/
  | list (path : Path)
  /-- To go on in the list of a directory, to the entry with a name. -/
  | next (directory : Path) (name : Text.Bytes)
  | makeDirectory (path : Path)
  /-- To open a file for writing, which makes it or takes its content away. -/
  | create (path : Path)
  /-- To put a text into a file that is open for writing. -/
  | fill (path : Path) (text : String)
  | rename (source path : Path)

/-- The paths that an operation hands to the file system. What is opened already is not named
again. -/
def FileTree.Operation.paths : FileTree.Operation → List Path
  | inspect path | list path | makeDirectory path | create path => [path]
  | next _ _ | fill _ _ => []
  | rename source path => [source, path]

/-- The number of bytes that a path may have. -/
def FileTree.pathLimit : Nat := 4095

/-- A file system that refuses nothing but paths that are too long. -/
def FileTree.refuseLong (operation : FileTree.Operation) : Option FileError :=
  if operation.paths.any fun path => FileTree.pathLimit < path.text.length then some .nameTooLong
  else none

/-- A file system and the place in it from which relative paths lead. -/
structure FileTree where
  root : FileTree.Entry
  workingDirectory : FileTree.Place
  /-- Why the file system refuses what its entries allow, as for want of a permission or of
  room. -/
  refuses : FileTree.Operation → Option FileError := fun _ => none
  /-- The content of a file when putting a text into it has been refused half-way. -/
  leaves : Path → String → Option String := fun _ _ => some ""
deriving Inhabited

namespace FileTree

open Text (Bytes slash point)

/-! ## Entries -/

namespace Entry

/-- The entry under a name. Only directories have any. -/
def child? (entry : Entry) (name : Bytes) : Option Entry :=
  match entry with
  | directory entries => entries.lookup name
  | _ => none

/-- The entry at the end of a row of names, the outermost one first. -/
def descend? (entry : Entry) : List Bytes → Option Entry
  | [] => some entry
  | name :: names => (entry.child? name).bind fun entry => entry.descend? names

/-- Whether the entry is a directory. -/
def isDirectory : Entry → Bool
  | directory _ => true
  | _ => false

/-- Whether the entry is a file. -/
def isFile : Entry → Bool
  | file _ => true
  | _ => false

end Entry

/-- The entry at a place. -/
def entryAt? (tree : FileTree) (place : Place) : Option Entry :=
  tree.root.descend? place.reverse

/-! ## Following paths -/

/-- The number of links that one path may lead through. -/
def linkLimit : Nat := 40

/-- The number of bytes that a name may have. -/
def nameLimit : Nat := 255

/-- What a path leads to: a place with an entry, or a name that a directory does not have. -/
inductive Target where
  | found (place : Place) (entry : Entry)
  | absent (directory : Place) (name : Bytes)
deriving Repr, Inhabited

/-- What stands between the slashes of a path. -/
def stepsOf (path : Path) : List Bytes :=
  Text.cutAt slash path.text

/-- Where a path starts that is met at a place. -/
def startOf (path : Path) (place : Place) : Place :=
  if path.isAbsolute then [] else place

/-- Takes steps from a place on. Every step but the last one has to end in a directory. A link
on the way is handed over, together with the place it is in and the steps behind it. -/
def walk (tree : FileTree) (follow : Bool)
    (onLink : Place → Path → List Bytes → Except FileError Target) :
    Place → List Bytes → Except FileError Target
  | place, [] =>
    match tree.entryAt? place with
    | some entry => .ok (.found place entry)
    | none => .error .notFound
  | place, step :: steps =>
    match tree.entryAt? place with
    | none => .error .notFound
    | some entry =>
      if !entry.isDirectory then .error .notDirectory
      else if step.isEmpty || step == [point] then walk tree follow onLink place steps
      else if step == [point, point] then walk tree follow onLink place.tail steps
      else if nameLimit < step.length then .error .nameTooLong
      else
        match entry.child? step with
        | none => if steps.isEmpty then .ok (.absent place step) else .error .notFound
        | some (.link target) =>
          if steps.isEmpty && !follow then .ok (.found (step :: place) (.link target))
          else onLink place target steps
        | some _ => walk tree follow onLink (step :: place) steps

/-- Takes steps from a place on, through at most so many links. -/
def walkThrough (tree : FileTree) (follow : Bool) :
    Nat → Place → List Bytes → Except FileError Target
  | 0 => walk tree follow fun _ _ _ => .error .tooManyLinks
  | links + 1 =>
    walk tree follow fun place target steps =>
      if target.text.isEmpty then .error .notFound
      else walkThrough tree follow links (startOf target place) (stepsOf target ++ steps)

/-- What a path leads to. `follow` says whether a link at its end is followed. -/
def locate (tree : FileTree) (follow : Bool) (path : Path) : Except FileError Target :=
  if path.text.isEmpty then .error .notFound
  else if path.text.contains 0 then .error .nulInPath
  else
    walkThrough tree follow linkLimit (startOf path tree.workingDirectory) (stepsOf path)

/-- The entry that a path leads to. -/
def entry (tree : FileTree) (path : Path) : Except FileError Entry :=
  match tree.locate true path with
  | .ok (.found _ entry) => .ok entry
  | .ok (.absent ..) => .error .notFound
  | .error error => .error error

/-! ## Questions about paths -/

/-- Whether a path leads to something. -/
def hasEntry (tree : FileTree) (path : Path) : Bool :=
  match tree.entry path with
  | .ok _ => true
  | .error _ => false

/-- Whether a path leads to a file. -/
def isFile (tree : FileTree) (path : Path) : Bool :=
  match tree.entry path with
  | .ok entry => entry.isFile
  | .error _ => false

/-- Whether a path leads to a directory. -/
def isDirectory (tree : FileTree) (path : Path) : Bool :=
  match tree.entry path with
  | .ok entry => entry.isDirectory
  | .error _ => false

/-- The text of the file that a path leads to. -/
def readText (tree : FileTree) (path : Path) : Except FileError String :=
  match tree.entry path with
  | .ok (.file (some text)) => .ok text
  | .ok (.file none) => .error .notText
  | .ok (.directory _) => .error .isDirectory
  | .ok (.link _) => .error .tooManyLinks
  | .error error => .error error

/-- The absolute path of the working directory. -/
def workingPath (tree : FileTree) : Path :=
  ⟨slash :: Text.join [slash] tree.workingDirectory.reverse⟩

end FileTree

end SampleMethods
