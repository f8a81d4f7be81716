import SampleMethods.FileTree

/-!
# Differences between file trees

What has to be made, and what has to be taken away, to get from one file tree to
another one.
-/

set_option autoImplicit false

namespace SampleMethods.FileTree

open Text (Bytes slash)

/-- A step from one file tree to another one. -/
inductive Difference where
  | directory (path : Path)
  | file (path : Path) (text : String)
  | removed (path : Path)
deriving Repr

mutual

/-- What makes an entry at a path out of what was there before. -/
def differencesAt (path : Path) (before : Option Entry) : Entry → List Difference
  | .file (some text) =>
    match before with
    | some (.file (some kept)) => if kept = text then [] else [.file path text]
    | _ => [.file path text]
  | .file none | .link _ => []
  | .directory entries =>
    match before with
    | some (.directory old) => differencesIn path old entries
    | _ => .directory path :: differencesIn path [] entries

/-- What makes the entries of a directory out of those that were there before. -/
def differencesIn (path : Path) (before : List (Bytes × Entry)) :
    List (Bytes × Entry) → List Difference
  | [] => []
  | (name, entry) :: entries =>
    differencesAt (path.child name) (before.lookup name) entry ++ differencesIn path before entries

end

mutual

/-- The paths of what is gone from an entry. -/
def removedAt (path : Path) (after : Option Entry) : Entry → List Path
  | .directory entries =>
    match after with
    | some (.directory kept) => removedIn path kept entries
    | some _ => []
    | none => [path]
  | .file _ | .link _ => if after.isNone then [path] else []

/-- The paths of what is gone from the entries of a directory. -/
def removedIn (path : Path) (after : List (Bytes × Entry)) :
    List (Bytes × Entry) → List Path
  | [] => []
  | (name, entry) :: entries =>
    removedAt (path.child name) (after.lookup name) entry ++ removedIn path after entries

end

/-- The steps from one file tree to another one. -/
def differences (before after : FileTree) : List Difference :=
  let root : Path := ⟨[slash]⟩
  differencesAt root (some before.root) after.root ++
    (removedAt root (some after.root) before.root).map .removed

end SampleMethods.FileTree
