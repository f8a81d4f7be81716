import Mathlib.Data.List.Nodup
import SampleMethods.FileTree

/-!
# Proper file trees

A file system has at most one entry under a name of a directory, and a name is
not empty, holds no slash, and is none of the two steps `.` and `..`. A tree for
which that holds is proper. In a proper tree the entries of a directory are found
by their names in whatever order they are listed (`lookup_eq_some_iff_mem`).
-/

set_option autoImplicit false

namespace SampleMethods.FileTree

open Text (Bytes point slash)

/-- Whether an entry can stand under the name. -/
def isName (name : Bytes) : Bool :=
  !name.isEmpty && name != [point] && name != [point, point] && !name.contains slash

namespace Entry

mutual

/-- Whether all directories in the entry have names only, and none of them twice. -/
def isProper : Entry → Bool
  | .directory entries => decide (entries.map (·.1)).Nodup && areProper entries
  | .file _ | .link _ => true

/-- Whether the entries have names and are proper. -/
def areProper : List (Bytes × Entry) → Bool
  | [] => true
  | (name, entry) :: entries => isName name && entry.isProper && areProper entries

end

theorem areProper_iff : ∀ {entries : List (Bytes × Entry)},
    areProper entries = true ↔
      ∀ name entry, (name, entry) ∈ entries → isName name = true ∧ entry.isProper = true
  | [] => by simp [areProper]
  | (name, entry) :: entries => by
      rw [areProper, Bool.and_eq_true, Bool.and_eq_true, areProper_iff]
      constructor
      · rintro ⟨first, rest⟩ otherName other member
        rcases List.mem_cons.mp member with same | inRest
        · cases same
          exact first
        · exact rest otherName other inRest
      · intro all
        exact ⟨all name entry List.mem_cons_self,
          fun otherName other member => all otherName other (List.mem_cons_of_mem _ member)⟩

theorem isProper_directory {entries : List (Bytes × Entry)} :
    (directory entries).isProper = true ↔
      (entries.map (·.1)).Nodup ∧
        ∀ name entry, (name, entry) ∈ entries → isName name = true ∧ entry.isProper = true := by
  rw [isProper, Bool.and_eq_true, decide_eq_true_eq, areProper_iff]

/-- Another entry may stand under a name if it is proper too. -/
theorem isProper_replaced {name : Bytes} {entry other : Entry}
    {before after : List (Bytes × Entry)}
    (proper : (directory (before ++ (name, entry) :: after)).isProper = true)
    (properOther : entry.isProper = true → other.isProper = true) :
    (directory (before ++ (name, other) :: after)).isProper = true := by
  obtain ⟨distinct, each⟩ := isProper_directory.mp proper
  refine isProper_directory.mpr ⟨by simpa using distinct, fun otherName inner member => ?_⟩
  have here := each name entry (by simp)
  rcases List.mem_append.mp member with inFront | inRest
  · exact each otherName inner (List.mem_append_left _ inFront)
  · rcases List.mem_cons.mp inRest with same | behind
    · cases same
      exact ⟨here.1, properOther here.2⟩
    · exact each otherName inner (by simp [behind])

end Entry

/-- Whether all directories of the tree have names only, and none of them twice. -/
def isProper (tree : FileTree) : Bool :=
  tree.root.isProper

/-- Among entries with different names the one under a name is found. -/
theorem lookup_eq_some_iff_mem {entries : List (Bytes × Entry)}
    (distinct : (entries.map (·.1)).Nodup) {name : Bytes} {entry : Entry} :
    entries.lookup name = some entry ↔ (name, entry) ∈ entries := by
  induction entries with
  | nil => simp
  | cons first rest ih =>
      obtain ⟨firstName, firstEntry⟩ := first
      rw [List.map_cons, List.nodup_cons] at distinct
      rw [List.lookup_cons, List.mem_cons, Prod.mk.injEq]
      by_cases same : name = firstName
      · subst same
        have absent : (name, entry) ∉ rest := fun member =>
          distinct.1 (List.mem_map.mpr ⟨_, member, rfl⟩)
        simp [absent, eq_comm]
      · have test : (name == firstName) = false := beq_eq_false_iff_ne.mpr same
        simp only [test, same, false_and, false_or]
        exact ih distinct.2

/-- The entry under a name of a proper directory is proper. -/
theorem Entry.isProper_child? {entry child : Entry} {name : Bytes}
    (proper : entry.isProper = true) (found : entry.child? name = some child) :
    child.isProper = true := by
  cases entry with
  | file text => cases found
  | link target => cases found
  | directory entries =>
      obtain ⟨distinct, each⟩ := isProper_directory.mp proper
      exact (each name child ((lookup_eq_some_iff_mem distinct).mp found)).2

end SampleMethods.FileTree
