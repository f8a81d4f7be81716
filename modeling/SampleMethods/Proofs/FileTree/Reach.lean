import SampleMethods.Proofs.FileTree.Resolution
import SampleMethods.Proofs.Path.Prefix

/-!
# What a search reaches

A search selects the wanted files that it reaches (`mem_selected_iff`), and there is
something at the path of each (`entry_ne_of_mem_selected`). What it reaches lies under the
path that it started at, and where it passes through an entry can be read off the path:
from there on it reaches what lies under the path of that entry (`Reaches.of_liesUnder`).
-/

set_option autoImplicit false

namespace SampleMethods.FileTree

open Text (Bytes)

namespace Reaches

variable {path first second : Path} {entry firstEntry secondEntry : Entry}

/-! ## The paths of what is reached -/

theorem isProper (proper : entry.isProper = true) (reaches : Reaches path entry first firstEntry) :
    firstEntry.isProper = true := by
  induction reaches with
  | here _ _ => exact proper
  | inside member _ _ ih => exact ih ((Entry.isProper_directory.mp proper).2 _ _ member).2

/-- What is reached lies under the path where the search started. -/
theorem liesUnder (proper : entry.isProper = true) (reaches : Reaches path entry first firstEntry) :
    first.LiesUnder path := by
  induction reaches with
  | here path _ => exact List.prefix_refl path.components
  | @inside path found name entries child entry member _ _ ih =>
      obtain ⟨isName, childProper⟩ := (Entry.isProper_directory.mp proper).2 name child member
      have below : path.components <+: (path.child name).components := by
        rw [Path.components_child isName]
        exact List.prefix_append _ _
      exact below.trans (ih childProper)

/-- **A search reaches what lies under an entry only through that entry.** -/
theorem of_liesUnder (proper : entry.isProper = true)
    (one : Reaches path entry first firstEntry) (other : Reaches path entry second secondEntry)
    (liesUnder : second.LiesUnder first) : Reaches first firstEntry second secondEntry := by
  induction one with
  | here _ _ => exact other
  | @inside path first name entries child firstEntry member visited further ih =>
      obtain ⟨distinct, each⟩ := Entry.isProper_directory.mp proper
      obtain ⟨isName, childProper⟩ := each name child member
      have underChild : second.LiesUnder (path.child name) :=
        (further.liesUnder childProper).trans liesUnder
      rw [Path.LiesUnder, Path.components_child isName] at underChild
      cases other with
      | here _ _ => exact absurd underChild.length_le (by simp)
      | @inside _ _ otherName _ otherChild _ otherMember otherVisited otherFurther =>
          obtain ⟨isOther, otherProper⟩ := each otherName otherChild otherMember
          have underOther := otherFurther.liesUnder otherProper
          rw [Path.LiesUnder, Path.components_child isOther] at underOther
          -- Two rows of the same length in front of one path are the same.
          have isFront := List.prefix_of_prefix_length_le underChild underOther (by simp)
          have same := isFront.eq_of_length (by simp)
          obtain rfl : name = otherName := by simpa using same
          have sameChild := ((lookup_eq_some_iff_mem distinct).mpr member).symm.trans
            ((lookup_eq_some_iff_mem distinct).mpr otherMember)
          cases sameChild
          exact ih childProper otherFurther liesUnder

/-! ## Following the paths -/

/-- What is reached from an entry that stands at its path stands at its own path. -/
theorem standsAt {tree : FileTree} (proper : entry.isProper = true)
    (reaches : Reaches path entry first firstEntry) (stands : StandsAt tree path entry) :
    StandsAt tree first firstEntry := by
  induction reaches with
  | here _ _ => exact stands
  | @inside path found name entries child entry member visited _ ih =>
      obtain ⟨distinct, each⟩ := Entry.isProper_directory.mp proper
      obtain ⟨isName, childProper⟩ := each name child member
      have noLink : ∀ target, child ≠ .link target := by
        rintro target rfl
        cases visited
      exact ih childProper
        (standsAt_child isName ((lookup_eq_some_iff_mem distinct).mpr member) noLink stands)

/-- Nothing can be followed to what is reached through a path that cannot be followed. -/
theorem exists_error {tree : FileTree} (proper : entry.isProper = true)
    (reaches : Reaches path entry first firstEntry) (openEnded : path.IsOpenEnded)
    (fails : ∃ error, tree.locate true path = .error error) :
    ∃ error, tree.locate true first = .error error := by
  induction reaches with
  | here _ _ => exact fails
  | @inside path found name entries child entry member _ _ ih =>
      obtain ⟨isName, childProper⟩ := (Entry.isProper_directory.mp proper).2 name child member
      refine ih childProper (child_isOpenEnded isName path) ?_
      obtain ⟨error, fails⟩ := fails
      by_cases nul : 0 ∈ (path.child name).text
      · exact ⟨_, locate_of_nul nul⟩
      · exact ⟨error, locate_child_of_error isName openEnded nul fails⟩

end Reaches

/-! ## Searches -/

section Searches

variable {tree : FileTree} {select : Path → Bool}

mutual

theorem reaches_of_mem_selectedAt : ∀ {entry : Entry} {path found : Path} {name : Bytes},
    found ∈ selectedAt select path name entry →
      isVisited name entry = true ∧ select found = true ∧
        ∃ text, Reaches path entry found (.file text)
  | .file text, path, found, name, member => by
      rw [selectedAt, List.mem_ite_nil_right, List.mem_singleton] at member
      obtain ⟨selected, rfl⟩ := member
      exact ⟨rfl, selected, text, .here found (.file text)⟩
  | .directory entries, path, found, name, member => by
      rw [selectedAt, List.mem_ite_nil_left] at member
      obtain ⟨entered, member⟩ := member
      exact ⟨by simpa [isVisited] using entered, reaches_of_mem_selectedIn member⟩
  | .link _, _, _, _, member => by
      rw [selectedAt] at member
      cases member

theorem reaches_of_mem_selectedIn : ∀ {entries : List (Bytes × Entry)} {directory found : Path},
    found ∈ selectedIn select directory entries →
      select found = true ∧ ∃ text, Reaches directory (.directory entries) found (.file text)
  | [], _, _, member => by
      rw [selectedIn] at member
      cases member
  | (name, entry) :: entries, directory, found, member => by
      rw [selectedIn, List.mem_append] at member
      rcases member with first | rest
      · obtain ⟨visited, selected, text, reaches⟩ := reaches_of_mem_selectedAt first
        exact ⟨selected, text, .inside List.mem_cons_self visited reaches⟩
      · obtain ⟨selected, text, reaches⟩ := reaches_of_mem_selectedIn rest
        cases reaches with
        | inside member visited further =>
            exact ⟨selected, text, .inside (List.mem_cons_of_mem _ member) visited further⟩

end

theorem mem_selectedAt_of_reaches {path found : Path} {entry : Entry} {text : Option String}
    (reaches : Reaches path entry found (.file text)) (selected : select found = true)
    {name : Bytes} (visited : isVisited name entry = true) :
    found ∈ selectedAt select path name entry := by
  generalize isFile : Entry.file text = file at reaches
  induction reaches generalizing name with
  | here path entry =>
      cases isFile
      simp [selectedAt, selected]
  | @inside path found innerName entries child entry member childVisited _ ih =>
      have entered : isSkipped name = false := by simpa [isVisited] using visited
      rw [selectedAt, entered, selectedIn_eq_flatMap]
      subst isFile
      exact List.mem_flatMap.mpr ⟨(innerName, child), member, ih selected childVisited rfl⟩

/-- **A search selects the wanted files that it reaches** from the entry at its path. -/
theorem mem_selected_iff {path found : Path} :
    found ∈ tree.selected select path ↔
      select found = true ∧
        ∃ entry text, tree.entry path = .ok entry ∧ Reaches path entry found (.file text) := by
  rw [selected]
  cases tree.entry path with
  | error error => simp
  | ok entry =>
      rw [List.mem_mergeSort]
      constructor
      · intro member
        obtain ⟨_, wanted, text, reaches⟩ := reaches_of_mem_selectedAt member
        exact ⟨wanted, entry, text, rfl, reaches⟩
      · rintro ⟨wanted, _, text, ⟨⟩, reaches⟩
        refine mem_selectedAt_of_reaches reaches wanted ?_
        cases reaches with
        | here _ _ => rfl
        | inside _ _ _ => rfl

/-- **There is something at the path of every file that a search selects**, though the path may be
one that cannot be followed. -/
theorem entry_ne_of_mem_selected (proper : tree.isProper = true) {path found : Path}
    (member : found ∈ tree.selected select path) : tree.entry found ≠ .error .notFound := by
  obtain ⟨_, entry, text, isEntry, reaches⟩ := mem_selected_iff.mp member
  obtain ⟨place, leads⟩ := exists_locate_of_entry isEntry
  exact (reaches.standsAt (isProper_of_entry proper isEntry) (.found place leads)).entry_ne

end Searches

end SampleMethods.FileTree
