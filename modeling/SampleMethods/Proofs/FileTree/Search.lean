import SampleMethods.FileTree.Search
import SampleMethods.Proofs.Failure

/-!
# Searches that succeed

A search goes from an entry to the entries of directories below it, except for links
and for directories with some names. It fails just if the file system refuses something
on this way, which is to list a directory that the search comes to or to tell what stands
in one, and otherwise it gives what is selected there (`search_eq_ok_iff`). Which files
are wanted has no part in whether a search succeeds.
-/

set_option autoImplicit false

namespace SampleMethods.FileTree

open Text (Bytes)

/-! ## The way of a search -/

/-- Whether a search looks at an entry with the name. -/
def isVisited (name : Bytes) : Entry → Bool
  | .file _ => true
  | .directory _ => !isSkipped name
  | .link _ => false

/-- A search that is at the entry at a path comes to another entry at another path. -/
inductive Reaches : Path → Entry → Path → Entry → Prop where
  | here (path : Path) (entry : Entry) : Reaches path entry path entry
  | inside {path found : Path} {name : Bytes} {entries : List (Bytes × Entry)}
      {child entry : Entry} : (name, child) ∈ entries → isVisited name child = true →
        Reaches (path.child name) child found entry → Reaches path (.directory entries) found entry

theorem Reaches.trans {path first second : Path} {entry firstEntry secondEntry : Entry}
    (one : Reaches path entry first firstEntry)
    (other : Reaches first firstEntry second secondEntry) :
    Reaches path entry second secondEntry := by
  induction one with
  | here _ _ => exact other
  | inside member visited _ ih => exact .inside member visited (ih other)

/-- A search that is at the entry at a path may list every directory that it comes to, and is told
what stands there. -/
def PermitsFrom (tree : FileTree) (path : Path) (entry : Entry) : Prop :=
  ∀ found entries, Reaches path entry found (.directory entries) →
    tree.refuses (.list found) = none ∧
      ∀ name child, (name, child) ∈ entries →
        tree.refuses (.next found name) = none ∧
          tree.refuses (.inspect (found.child name)) = none

/-- The file system refuses nothing that a search at the path asks for. -/
def Permits (tree : FileTree) (path : Path) : Prop :=
  ∀ entry, tree.entry path = .ok entry → PermitsFrom tree path entry

section Permission

variable {tree : FileTree} {path found : Path} {entry foundEntry : Entry}

theorem permitsFrom_file (text : Option String) : PermitsFrom tree path (.file text) := by
  intro found entries reaches
  cases reaches

theorem permitsFrom_link (target : Path) : PermitsFrom tree path (.link target) := by
  intro found entries reaches
  cases reaches

/-- A search that is at a directory at a path may go on to an entry in it, and may do there what it
asks for. -/
def PermitsChild (tree : FileTree) (directory : Path) (child : Bytes × Entry) : Prop :=
  tree.refuses (.next directory child.1) = none ∧
    tree.refuses (.inspect (directory.child child.1)) = none ∧
    (isVisited child.1 child.2 = true → PermitsFrom tree (directory.child child.1) child.2)

theorem permitsFrom_directory_iff {entries : List (Bytes × Entry)} :
    PermitsFrom tree path (.directory entries) ↔
      tree.refuses (.list path) = none ∧ ∀ child ∈ entries, PermitsChild tree path child := by
  constructor
  · intro permits
    obtain ⟨list, each⟩ := permits path entries (.here path _)
    refine ⟨list, fun ⟨name, child⟩ member => ?_⟩
    obtain ⟨next, inspect⟩ := each name child member
    exact ⟨next, inspect, fun visited found inner reaches =>
      permits found inner (.inside member visited reaches)⟩
  · rintro ⟨list, each⟩ found inner reaches
    cases reaches with
    | here _ _ => exact ⟨list, fun name child member =>
        ⟨(each (name, child) member).1, (each (name, child) member).2.1⟩⟩
    | inside member visited further => exact (each _ member).2.2 visited found inner further

/-- A search that is permitted is permitted from everything on that it comes to. -/
theorem PermitsFrom.of_reaches (permits : PermitsFrom tree path entry)
    (reaches : Reaches path entry found foundEntry) : PermitsFrom tree found foundEntry :=
  fun further entries more => permits further entries (reaches.trans more)

/-- Where a file system refuses nothing, every search is permitted. -/
theorem permits_of_refuses_eq_none (free : ∀ operation, tree.refuses operation = none)
    (path : Path) : tree.Permits path :=
  fun _ _ _ _ _ => ⟨free _, fun _ _ _ => ⟨free _, free _⟩⟩

end Permission

/-! ## What is selected -/

section Selection

variable (select : Path → Bool)

mutual

/-- The selected files in the entries of a directory at a path. -/
def selectedIn (directory : Path) : List (Bytes × Entry) → List Path
  | [] => []
  | (name, entry) :: entries =>
    selectedAt (directory.child name) name entry ++ selectedIn directory entries

/-- The selected files in an entry with a name, which stands at a path. -/
def selectedAt (path : Path) (name : Bytes) : Entry → List Path
  | .file _ => if select path then [path] else []
  | .directory entries => if isSkipped name then [] else selectedIn path entries
  | .link _ => []

end

/-- The selected files below a path, in the order of their paths. -/
def selected (tree : FileTree) (path : Path) : List Path :=
  match tree.entry path with
  | .ok entry => (selectedAt select path [] entry).mergeSort Path.isAtMost
  | .error _ => []

end Selection

/-! ## The results of searches -/

section Searches

variable {tree : FileTree} {select : Path → Bool}

theorem permitFor_eq_ok_iff {steps : List String} {operation : Operation} {done : Unit} :
    tree.permitFor steps operation = .ok done ↔ tree.refuses operation = none := by
  rw [permitFor]
  cases tree.refuses operation with
  | none => simp
  | some error => simp

mutual

theorem searchIn_eq_ok_iff : ∀ {entries : List (Bytes × Entry)} {directory : Path}
    {found : List Path},
    tree.searchIn select directory entries = .ok found ↔
      (∀ child ∈ entries, PermitsChild tree directory child) ∧
        found = selectedIn select directory entries
  | [], directory, found => by
      simp [searchIn, selectedIn, pure_eq_ok_iff]
  | (name, entry) :: entries, directory, found => by
      simp only [searchIn, selectedIn, bind_eq_ok_iff, permitFor_eq_ok_iff, searchAt_eq_ok_iff,
        searchIn_eq_ok_iff, pure_eq_ok_iff, List.forall_mem_cons, PermitsChild]
      constructor
      · rintro ⟨_, next, _, inspect, _, ⟨visited, rfl⟩, _, ⟨each, rfl⟩, same⟩
        exact ⟨⟨⟨next, inspect, visited⟩, each⟩, same⟩
      · rintro ⟨⟨⟨next, inspect, visited⟩, each⟩, same⟩
        exact ⟨(), next, (), inspect, _, ⟨visited, rfl⟩, _, ⟨each, rfl⟩, same⟩

theorem searchAt_eq_ok_iff : ∀ {entry : Entry} {path : Path} {name : Bytes} {found : List Path},
    tree.searchAt select path name entry = .ok found ↔
      (isVisited name entry = true → PermitsFrom tree path entry) ∧
        found = selectedAt select path name entry
  | .file text, path, name, found => by
      simp [searchAt, selectedAt, permitsFrom_file, pure_eq_ok_iff]
  | .link target, path, name, found => by
      simp [searchAt, selectedAt, permitsFrom_link, pure_eq_ok_iff]
  | .directory entries, path, name, found => by
      rw [searchAt, selectedAt, isVisited]
      cases skipped : isSkipped name with
      | true => simp [pure_eq_ok_iff]
      | false =>
          have entered : (do
              tree.permitFor ["Failed to read directory: " ++ path.toString] (.list path)
              tree.searchIn select path entries) = .ok found ↔
              PermitsFrom tree path (.directory entries) ∧
                found = selectedIn select path entries := by
            simp only [bind_eq_ok_iff, permitFor_eq_ok_iff, searchIn_eq_ok_iff,
              permitsFrom_directory_iff]
            exact ⟨fun ⟨_, list, each, isFound⟩ => ⟨⟨list, each⟩, isFound⟩,
              fun ⟨⟨list, each⟩, isFound⟩ => ⟨(), list, each, isFound⟩⟩
          simpa using entered

end

/-- **A search succeeds just if it is permitted**, and then it gives the selected files. -/
theorem search_eq_ok_iff {path : Path} {found : List Path} :
    tree.search select path = .ok found ↔
      tree.Permits path ∧ found = tree.selected select path := by
  rw [search, selected, Permits]
  cases tree.entry path with
  | error error => simp [pure_eq_ok_iff]
  | ok entry =>
      -- Where the search starts no name keeps it from looking at the entry.
      have visited : (isVisited [] entry = true → PermitsFrom tree path entry) ↔
          PermitsFrom tree path entry := by
        cases entry with
        | link target => simp [permitsFrom_link]
        | file text => simp [permitsFrom_file]
        | directory entries => simp [isVisited, show isSkipped [] = false from rfl]
      simp only [bind_eq_ok_iff, searchAt_eq_ok_iff, visited, pure_eq_ok_iff, Except.ok.injEq,
        forall_eq']
      constructor
      · rintro ⟨_, ⟨permits, rfl⟩, same⟩
        exact ⟨permits, same⟩
      · rintro ⟨permits, rfl⟩
        exact ⟨_, ⟨permits, rfl⟩, rfl⟩

end Searches

end SampleMethods.FileTree
