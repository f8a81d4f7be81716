import SampleMethods.Proofs.FileTree.Entered
import SampleMethods.Proofs.Text.Split

/-!
# Paths that are too long

A file system takes paths up to a length only. A directory may be named by a path that is short
enough, with a file in it whose path is too long: then a search that starts there fails
(`not_permits_of_long`). How long a path is has nothing to do with how deep it leads, because
steps `.` in front of it make it longer and lead nowhere (`locate_dotted`).
-/

set_option autoImplicit false

namespace SampleMethods.FileTree

open Text (Bytes point slash)

variable {tree : FileTree} {path : Path}

theorem refuseLong_eq_none_iff {operation : Operation} :
    refuseLong operation = none ↔ ∀ path ∈ operation.paths, path.text.length ≤ pathLimit := by
  rw [refuseLong, ite_eq_right_iff]
  simp

/-- **No search succeeds in a directory with an entry whose path is too long.** -/
theorem not_permits_of_long (refuses : tree.refuses = refuseLong)
    {entries : List (Bytes × Entry)} (isRoot : tree.entry path = .ok (.directory entries))
    {name : Bytes} {child : Entry} (member : (name, child) ∈ entries) (isName : isName name = true)
    (long : pathLimit < path.stem.length + name.length) : ¬tree.Permits path := by
  intro permits
  obtain ⟨_, each⟩ := permitsFrom_directory_iff.mp (permits _ isRoot)
  have inspected := (each _ member).2.1
  rw [refuses, refuseLong_eq_none_iff] at inspected
  have fits := inspected _ List.mem_cons_self
  rw [child_text isName, List.length_append] at fits
  exact absurd long (Nat.not_lt.mpr fits)

/-- The path with a number of steps `.` in front. -/
def dotted (count : Nat) (path : Path) : Path :=
  ⟨(List.replicate count [point, slash]).flatten ++ path.text⟩

theorem length_dotted (count : Nat) (path : Path) :
    (dotted count path).text.length = count * 2 + path.text.length := by
  simp [dotted]

theorem isOpenEnded_dotted (openEnded : path.IsOpenEnded) (count : Nat) :
    (dotted count path).IsOpenEnded := by
  obtain ⟨nonempty, isLast⟩ := openEnded
  refine ⟨by simp [dotted, nonempty], ?_⟩
  rw [dotted, List.getLast?_append_of_ne_nil _ nonempty]
  exact isLast

theorem stepsOf_dotted (count : Nat) (path : Path) :
    stepsOf (dotted count path) = List.replicate count [point] ++ stepsOf path := by
  induction count with
  | zero => rfl
  | succ count ih =>
      have cut : (dotted (count + 1) path).text = [point] ++ slash :: (dotted count path).text := by
        simp [dotted, List.replicate_succ]
      rw [stepsOf, cut, Text.cutAt_append_cons, List.replicate_succ]
      exact congrArg _ ih

theorem walk_replicate_point {onLink : Place → Path → List Bytes → Except FileError Target}
    {entries : List (Bytes × Entry)} {place : Place}
    (isThere : tree.entryAt? place = some (.directory entries)) (count : Nat) (steps : List Bytes) :
    tree.walk true onLink place (List.replicate count [point] ++ steps) =
      tree.walk true onLink place steps := by
  induction count with
  | zero => rfl
  | succ count ih =>
      rw [List.replicate_succ, List.cons_append, walk, isThere]
      simpa [Entry.isDirectory] using ih

theorem isAbsolute_dotted (relative : path.isAbsolute = false) (count : Nat) :
    (dotted count path).isAbsolute = false := by
  cases count with
  | zero => exact relative
  | succ count => rfl

/-- **Steps `.` in front of a path lead nowhere**, if the working directory is there. -/
theorem locate_dotted {entries : List (Bytes × Entry)}
    (isThere : tree.entryAt? tree.workingDirectory = some (.directory entries))
    (nonempty : path.text ≠ []) (noNul : 0 ∉ path.text) (relative : path.isAbsolute = false)
    (count : Nat) : tree.locate true (dotted count path) = tree.locate true path := by
  have dottedNonempty : (dotted count path).text ≠ [] := by simp [dotted, nonempty]
  have dottedNoNul : 0 ∉ (dotted count path).text := by
    simp [dotted, noNul, List.mem_replicate, point, slash]
  obtain ⟨onLink, isWalk⟩ := exists_walk tree linkLimit
  rw [locate_eq_walkThrough dottedNonempty dottedNoNul, locate_eq_walkThrough nonempty noNul,
    startOf, startOf, isAbsolute_dotted relative, relative, isWalk, stepsOf_dotted]
  exact walk_replicate_point isThere count _

/-- Two source files. -/
def twoScripts : List (Bytes × Entry) :=
  [(Text.bytes "a.js", .file (some "function f() {}\nf();\n")),
    (Text.bytes "bb.js", .file (some "function g() {}\ng();\n"))]

/-- A file system with the two source files in a directory of the working directory. -/
def scriptTree : FileTree where
  root := .directory [(Text.bytes "proj", .directory twoScripts)]
  workingDirectory := []
  refuses := refuseLong

/-- A path of that directory behind which there is room for four characters and a slash. -/
def longRoot : Path :=
  dotted 2043 (.ofString "proj")

theorem locate_longRoot : scriptTree.locate true longRoot =
    .ok (.found [Text.bytes "proj"] (.directory twoScripts)) :=
  (locate_dotted rfl (by decide) (by decide) rfl 2043).trans rfl

theorem length_longRoot : longRoot.text.length = 4090 := by
  rw [longRoot, length_dotted]
  decide

theorem not_permits_longRoot : ¬scriptTree.Permits longRoot := by
  have isRoot : scriptTree.entry longRoot = .ok (.directory twoScripts) := by
    rw [entry, locate_longRoot]
  have isLong : longRoot.stem.length = 4091 := by
    have openEnded : longRoot.IsOpenEnded :=
      isOpenEnded_dotted ⟨by decide, by decide⟩ 2043
    rw [openEnded.stem_eq, List.length_append, length_longRoot]
    rfl
  refine not_permits_of_long rfl isRoot (List.mem_cons_of_mem _ List.mem_cons_self) (by decide) ?_
  rw [isLong]
  decide

end SampleMethods.FileTree
