import SampleMethods.FileTree.Change
import SampleMethods.Proofs.FileTree.LinkFree

/-!
# What a change leaves as it is

Putting an entry under a name of a directory changes what stands at that place, and
nothing at any place that is not below it (`seenAt?_withEntry_of_not_below`). If neither
the old nor the new entry has anything in it, nothing is below it, and so all other
places are as they were (`seenAt?_withEntry`).

What is seen at a place is whether there is a file, a directory or a link, with its text
or its target. What a directory has in it is seen at the places below.
-/

set_option autoImplicit false

namespace SampleMethods.FileTree

open Text (Bytes)

/-! ## Entries of a directory -/

section Put

variable {name : Bytes} {entries : List (Bytes × Entry)}

theorem lookup_put_self (name : Bytes) (entry : Entry) (entries : List (Bytes × Entry)) :
    (Entry.put name (some entry) entries).lookup name = some entry := by
  induction entries with
  | nil => exact List.lookup_cons_self
  | cons first rest ih =>
      obtain ⟨other, kept⟩ := first
      rw [Entry.put]
      by_cases same : other = name
      · rw [if_pos (beq_iff_eq.mpr same)]
        exact List.lookup_cons_self
      · have differs : (name == other) = false := beq_eq_false_iff_ne.mpr (Ne.symm same)
        rw [if_neg (by simpa using same), List.lookup_cons, differs]
        exact ih

theorem lookup_put_of_ne {other : Bytes} (differs : other ≠ name) (entry : Option Entry)
    (entries : List (Bytes × Entry)) :
    (Entry.put name entry entries).lookup other = entries.lookup other := by
  have ownName : (other == name) = false := beq_eq_false_iff_ne.mpr differs
  have single : ∀ rest : List (Bytes × Entry),
      ((entry.map fun entry => (name, entry)).toList ++ rest).lookup other = rest.lookup other := by
    intro rest
    cases entry with
    | none => rfl
    | some entry =>
        change ((name, entry) :: rest).lookup other = _
        rw [List.lookup_cons, ownName]
  induction entries with
  | nil => simpa [Entry.put] using single []
  | cons first rest ih =>
      obtain ⟨here, kept⟩ := first
      rw [Entry.put]
      by_cases same : here = name
      · rw [if_pos (beq_iff_eq.mpr same), single, List.lookup_cons, same, ownName]
      · rw [if_neg (by simpa using same), List.lookup_cons, List.lookup_cons, ih]

/-- Taking away what is not there changes nothing. -/
theorem put_none_of_lookup (absent : entries.lookup name = none) :
    Entry.put name none entries = entries := by
  induction entries with
  | nil => rfl
  | cons first rest ih =>
      obtain ⟨other, kept⟩ := first
      rw [List.lookup_cons] at absent
      by_cases same : name = other
      · rw [beq_iff_eq.mpr same] at absent
        cases absent
      · rw [beq_eq_false_iff_ne.mpr same] at absent
        rw [Entry.put, if_neg (by simpa using Ne.symm same), ih absent]

/-- An entry that was not there before is taken away again. -/
theorem put_none_put (absent : entries.lookup name = none) (entry : Entry) :
    Entry.put name none (Entry.put name (some entry) entries) = entries := by
  induction entries with
  | nil => simp [Entry.put]
  | cons first rest ih =>
      obtain ⟨other, kept⟩ := first
      rw [List.lookup_cons] at absent
      by_cases same : name = other
      · rw [beq_iff_eq.mpr same] at absent
        cases absent
      · rw [beq_eq_false_iff_ne.mpr same] at absent
        have differs : ¬(other == name) = true := by simpa using Ne.symm same
        rw [Entry.put, if_neg differs, Entry.put, if_neg differs, ih absent]

/-- Putting an entry where it stands changes nothing. -/
theorem put_of_lookup {entry : Entry} (isThere : entries.lookup name = some entry) :
    Entry.put name (some entry) entries = entries := by
  induction entries with
  | nil => cases isThere
  | cons first rest ih =>
      obtain ⟨other, kept⟩ := first
      rw [List.lookup_cons] at isThere
      by_cases same : name = other
      · rw [beq_iff_eq.mpr same] at isThere
        cases isThere
        rw [Entry.put, if_pos (beq_iff_eq.mpr same.symm), same]
        rfl
      · rw [beq_eq_false_iff_ne.mpr same] at isThere
        rw [Entry.put, if_neg (by simpa using Ne.symm same), ih isThere]

/-- Of two entries that are put under a name the second one stays. -/
theorem put_put (first second : Entry) (entries : List (Bytes × Entry)) :
    Entry.put name (some second) (Entry.put name (some first) entries) =
      Entry.put name (some second) entries := by
  induction entries with
  | nil => simp [Entry.put]
  | cons entry rest ih =>
      obtain ⟨other, kept⟩ := entry
      by_cases same : other = name
      · simp [Entry.put, same]
      · have differs : ¬(other == name) = true := by simpa using same
        rw [Entry.put, if_neg differs, Entry.put, if_neg differs, Entry.put, if_neg differs, ih]

end Put

/-! ## Directories further down -/

section Change

variable {edit : List (Bytes × Entry) → List (Bytes × Entry)}

theorem descend?_append (entry : Entry) (names others : List Bytes) :
    entry.descend? (names ++ others) =
      (entry.descend? names).bind fun deep => deep.descend? others := by
  induction names generalizing entry with
  | nil => rfl
  | cons name names ih =>
      simp only [List.cons_append, Entry.descend?, Option.bind_assoc]
      exact congrArg _ (funext fun child => ih child)

/-- What a changed directory has under the name on the way to the change. -/
theorem lookup_put_map (name : Bytes) (f : Entry → Entry) (entries : List (Bytes × Entry)) :
    (Entry.put name ((entries.lookup name).map f) entries).lookup name =
      (entries.lookup name).map f := by
  cases isThere : entries.lookup name with
  | none => rw [Option.map_none, put_none_of_lookup isThere, isThere]
  | some entry => exact lookup_put_self name (f entry) entries

/-- The directory that is changed has the changed entries. -/
theorem descend?_change {names : List Bytes} {root : Entry}
    {entries : List (Bytes × Entry)} (isThere : root.descend? names = some (.directory entries)) :
    (root.change edit names).descend? names = some (.directory (edit entries)) := by
  induction names generalizing root with
  | nil =>
      cases isThere
      rfl
  | cons name names ih =>
      obtain ⟨child, isChild, below⟩ := Option.bind_eq_some_iff.mp isThere
      cases root with
      | file text => cases isChild
      | link target => cases isChild
      | directory others =>
          have isChild : others.lookup name = some child := isChild
          rw [Entry.change, Entry.descend?, Entry.child?, lookup_put_map, isChild, Option.map_some,
            Option.bind_some]
          exact ih below

/-- Without a change to the entries of the directory there is none at all. -/
theorem change_of_eq {names : List Bytes} {root : Entry} {entries : List (Bytes × Entry)}
    (isThere : root.descend? names = some (.directory entries)) (same : edit entries = entries) :
    root.change edit names = root := by
  induction names generalizing root with
  | nil =>
      cases isThere
      exact congrArg Entry.directory same
  | cons name names ih =>
      obtain ⟨child, isChild, below⟩ := Option.bind_eq_some_iff.mp isThere
      cases root with
      | file text => cases isChild
      | link target => cases isChild
      | directory others =>
          have isChild : others.lookup name = some child := isChild
          rw [Entry.change, isChild, Option.map_some, ih below, put_of_lookup isChild]

/-- Two changes to one directory are one change. -/
theorem change_change (names : List Bytes) (root : Entry)
    (edit other : List (Bytes × Entry) → List (Bytes × Entry)) :
    (root.change edit names).change other names = root.change (other ∘ edit) names := by
  induction names generalizing root with
  | nil =>
      cases root with
      | file text => rfl
      | link target => rfl
      | directory entries => rfl
  | cons name names ih =>
      cases root with
      | file text => rfl
      | link target => rfl
      | directory entries =>
          rw [Entry.change, Entry.change, Entry.change, lookup_put_map]
          cases isThere : entries.lookup name with
          | none => simp only [Option.map_none, put_none_of_lookup isThere]
          | some child => simp only [Option.map_some, put_put, ih]

/-- What an entry is, apart from what a directory has in it. -/
def Entry.shell : Entry → Entry
  | .directory _ => .directory []
  | entry => entry

/-- A change to a directory is seen only below it. -/
theorem shell_descend?_change {names others : List Bytes} (root : Entry)
    (notBelow : ∀ name rest, others ≠ names ++ name :: rest) :
    ((root.change edit names).descend? others).map Entry.shell =
      (root.descend? others).map Entry.shell := by
  induction names generalizing root others with
  | nil =>
      cases others with
      | nil =>
          cases root with
          | file text => rfl
          | link target => rfl
          | directory entries => rfl
      | cons name rest => exact absurd rfl (notBelow name rest)
  | cons name names ih =>
      cases root with
      | file text => rfl
      | link target => rfl
      | directory entries =>
          cases others with
          | nil => rfl
          | cons other others =>
              simp only [Entry.change, Entry.descend?, Entry.child?]
              by_cases same : other = name
              · subst same
                rw [lookup_put_map]
                cases entries.lookup other with
                | none => rfl
                | some child =>
                    exact ih child fun name rest isBelow => notBelow name rest (by rw [isBelow]; rfl)
              · rw [lookup_put_of_ne same]

end Change

/-! ## Places -/

/-- What is seen at a place. -/
def seenAt? (tree : FileTree) (place : Place) : Option Entry :=
  (tree.entryAt? place).map Entry.shell

section Places

variable {tree : FileTree} {directory place : Place} {name : Bytes}

theorem entryAt?_append (tree : FileTree) (above place : Place) :
    tree.entryAt? (above ++ place) =
      (tree.entryAt? place).bind fun entry => entry.descend? above.reverse := by
  rw [entryAt?, List.reverse_append, descend?_append]
  rfl

theorem seenAt?_eq_directory_iff :
    tree.seenAt? place = some (.directory []) ↔
      ∃ entries, tree.entryAt? place = some (.directory entries) := by
  rw [seenAt?]
  constructor
  · intro isSeen
    obtain ⟨entry, isThere, isShell⟩ := Option.map_eq_some_iff.mp isSeen
    cases entry with
    | file text => cases isShell
    | link target => cases isShell
    | directory entries => exact ⟨entries, isThere⟩
  · rintro ⟨entries, isThere⟩
    rw [isThere]
    rfl

theorem seenAt?_eq_some_iff {entry : Entry} (notDirectory : entry.isDirectory = false) :
    tree.seenAt? place = some entry ↔ tree.entryAt? place = some entry := by
  rw [seenAt?]
  constructor
  · intro isSeen
    obtain ⟨other, isThere, isShell⟩ := Option.map_eq_some_iff.mp isSeen
    cases other with
    | file text =>
        cases isShell
        exact isThere
    | link target =>
        cases isShell
        exact isThere
    | directory entries =>
        cases isShell
        cases notDirectory
  · intro isThere
    rw [isThere]
    cases entry with
    | file text => rfl
    | link target => rfl
    | directory entries => cases notDirectory

theorem seenAt?_eq_none_iff : tree.seenAt? place = none ↔ tree.entryAt? place = none :=
  Option.map_eq_none_iff

section WithEntry

variable {entries : List (Bytes × Entry)}
  (isThere : tree.entryAt? directory = some (.directory entries))

include isThere

theorem entryAt?_withEntry_name (entry : Option Entry) (other : Bytes) :
    (tree.withEntry directory name entry).entryAt? (other :: directory) =
      (Entry.put name entry entries).lookup other := by
  have isChanged : (tree.withEntry directory name entry).entryAt? directory =
      some (.directory (Entry.put name entry entries)) :=
    descend?_change isThere
  exact entryAt?_name isChanged other

/-- The entry that is put stands at its place. -/
theorem entryAt?_withEntry_self (entry : Entry) :
    (tree.withEntry directory name (some entry)).entryAt? (name :: directory) = some entry := by
  rw [entryAt?_withEntry_name isThere, lookup_put_self]

/-- An entry that was not there before is taken away again. -/
theorem withEntry_none_withEntry (absent : tree.entryAt? (name :: directory) = none)
    (entry : Entry) :
    (tree.withEntry directory name (some entry)).withEntry directory name none = tree := by
  rw [entryAt?_name isThere] at absent
  have same : tree.root.change (Entry.put name none ∘ Entry.put name (some entry))
      directory.reverse = tree.root :=
    change_of_eq isThere (put_none_put absent entry)
  rw [← change_change] at same
  exact congrArg (fun root => { tree with root := root }) same

/-- **What is not below a new entry is seen as it was.** -/
theorem seenAt?_withEntry_of_not_below (entry : Option Entry)
    (notBelow : ¬name :: directory <:+ place) :
    (tree.withEntry directory name entry).seenAt? place = tree.seenAt? place := by
  by_cases inside : ∃ above other, place = above ++ other :: directory
  · obtain ⟨above, other, rfl⟩ := inside
    have differs : other ≠ name := fun same => notBelow ⟨above, by rw [same]⟩
    rw [seenAt?, seenAt?, entryAt?_append, entryAt?_append, entryAt?_withEntry_name isThere,
      entryAt?_name isThere, lookup_put_of_ne differs]
  · refine shell_descend?_change tree.root fun other rest isBelow => inside ?_
    refine ⟨rest.reverse, other, ?_⟩
    rw [← List.reverse_inj, isBelow]
    simp

/-- **A new entry is seen at its own place only**, if nothing is in it and nothing was in the
old one. -/
theorem seenAt?_withEntry {entry : Entry}
    (bare : ∀ other, entry.child? other = none)
    (wasBare : ∀ old, tree.entryAt? (name :: directory) = some old → ∀ other, old.child? other = none)
    (elsewhere : place ≠ name :: directory) :
    (tree.withEntry directory name (some entry)).seenAt? place = tree.seenAt? place := by
  by_cases isBelow : name :: directory <:+ place
  · obtain ⟨above, rfl⟩ := isBelow
    have deeper : ∃ first rest, above.reverse = first :: rest := by
      refine List.exists_cons_of_ne_nil fun isEmpty => elsewhere ?_
      rw [List.reverse_eq_nil_iff.mp isEmpty, List.nil_append]
    obtain ⟨first, rest, isReverse⟩ := deeper
    rw [seenAt?, seenAt?, entryAt?_append, entryAt?_append, entryAt?_withEntry_self isThere,
      isReverse, Option.bind_some, Entry.descend?, bare, Option.bind_none]
    cases old : tree.entryAt? (name :: directory) with
    | none => rfl
    | some entry =>
        rw [Option.bind_some, Entry.descend?, wasBare entry old, Option.bind_none]
  · exact seenAt?_withEntry_of_not_below isThere (some entry) isBelow

end WithEntry

end Places

end SampleMethods.FileTree
