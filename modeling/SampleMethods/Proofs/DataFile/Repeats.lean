import Mathlib.Data.List.Flatten
import Mathlib.Data.List.Perm.Subperm
import SampleMethods.DataFile.Validation

/-!
# Tags with several entries

Whether an entry is reported for its tag depends on the entries in front of it.
How often a tag is reported does not: once less than it has entries
(`count_repeatedIn_nil`). So whatever the order of the files is, the problems of
their tags are those of each tag by itself, and these reports
(`problemsOfTags_perm`), and more entries never have less problems
(`problemsOfTags_subperm`).
-/

set_option autoImplicit false

namespace SampleMethods.DataFile

/-! ## Parts of rows -/

section Parts

variable {α β : Type}

/-- What comes of the items of a part of a row is a part of what comes of all. -/
theorem subperm_flatMap {items others : List α} (part : items.Subperm others) (f : α → List β) :
    (items.flatMap f).Subperm (others.flatMap f) := by
  obtain ⟨arranged, perm, sublist⟩ := part
  exact ⟨arranged.flatMap f, perm.flatMap_right f, sublist.flatMap f⟩

theorem subperm_filterMap {items others : List α} (part : items.Subperm others)
    (f : α → Option β) : (items.filterMap f).Subperm (others.filterMap f) := by
  obtain ⟨arranged, perm, sublist⟩ := part
  exact ⟨arranged.filterMap f, perm.filterMap f, sublist.filterMap f⟩

theorem subperm_map {items others : List α} (part : items.Subperm others) (f : α → β) :
    (items.map f).Subperm (others.map f) := by
  rw [← List.filterMap_eq_map']
  exact subperm_filterMap part _

end Parts

/-! ## Repeated tags -/

/-- Those tags of a row in front of which they stand already, or are among `seen`. -/
def repeatedIn : List String → List String → List String
  | _, [] => []
  | seen, tag :: tags =>
    (if seen.contains tag then [tag] else []) ++ repeatedIn (tag :: seen) tags

theorem count_repeatedIn (seen tags : List String) (tag : String) :
    (repeatedIn seen tags).count tag = tags.count tag - if tag ∈ seen then 0 else 1 := by
  -- Every tag is among the seen ones for the tags behind it, so these stay general.
  induction tags generalizing seen with
  | nil => simp [repeatedIn]
  | cons first tags ih =>
      rw [repeatedIn, List.count_append, ih]
      by_cases same : first = tag
      · subst same
        by_cases isSeen : first ∈ seen
        · simp [isSeen, Nat.add_comm]
        · simp [isSeen]
      · have notHere : (if seen.contains first then [first] else []).count tag = 0 := by
          split_ifs
          · exact List.count_eq_zero.mpr (by simpa using Ne.symm same)
          · rfl
        have others : tag ∈ first :: seen ↔ tag ∈ seen := by simp [Ne.symm same]
        rw [notHere, List.count_cons_of_ne same, Nat.zero_add]
        simp only [others]

/-- **A tag is repeated once less than it is there.** -/
theorem count_repeatedIn_nil (tags : List String) (tag : String) :
    (repeatedIn [] tags).count tag = tags.count tag - 1 :=
  count_repeatedIn [] tags tag

/-- More tags have more repetitions, in whatever order. -/
theorem repeatedIn_subperm {tags others : List String} (more : tags.Subperm others) :
    (repeatedIn [] tags).Subperm (repeatedIn [] others) := by
  refine List.subperm_iff_count.mpr fun tag => ?_
  rw [count_repeatedIn_nil, count_repeatedIn_nil]
  exact Nat.sub_le_sub_right (more.count_le tag) 1

/-! ## The problems of tags -/

section Problems

variable {inventory : Inventory}

/-- The problems of tags are those of each tag by itself, and the reports of repeated tags. -/
theorem problemsOfTags_perm (seen : List String) (entries : List (Path × String × TagEntry)) :
    (problemsOfTags inventory seen entries).Perm
      ((entries.flatMap fun (path, tag, entry) => tagProblems inventory path tag entry) ++
        (repeatedIn seen (entries.map (·.2.1))).map .repeatedTag) := by
  induction entries generalizing seen with
  | nil => exact .refl _
  | cons item entries ih =>
      obtain ⟨path, tag, entry⟩ := item
      have here : (if seen.contains tag then [tag] else []).map Problem.repeatedTag =
          if seen.contains tag then [.repeatedTag tag] else [] := by
        split_ifs <;> rfl
      rw [problemsOfTags, List.flatMap_cons, List.map_cons, repeatedIn, List.map_append, here,
        List.append_assoc, List.append_assoc]
      refine List.Perm.append_left _ (((ih (tag :: seen)).append_left _).trans ?_)
      rw [← List.append_assoc, ← List.append_assoc]
      exact List.perm_append_comm.append_right _

/-- More entries have all the problems of less entries, in whatever order they are. -/
theorem problemsOfTags_subperm {entries others : List (Path × String × TagEntry)}
    (more : entries.Subperm others) :
    (problemsOfTags inventory [] entries).Subperm (problemsOfTags inventory [] others) := by
  have each := subperm_flatMap more fun (path, tag, entry) => tagProblems inventory path tag entry
  have repeats := subperm_map (repeatedIn_subperm (subperm_map more (·.2.1))) Problem.repeatedTag
  exact ((problemsOfTags_perm [] entries).subperm.trans (each.append repeats)).trans
    (problemsOfTags_perm [] others).symm.subperm

/-- The tag that a problem says is repeated. -/
def Problem.repeatedTag? : Problem → Option String
  | repeatedTag tag => some tag
  | _ => none

theorem repeatedTag?_of_mem_tagProblems {path : Path} {tag : String} {entry : TagEntry}
    {problem : Problem} (member : problem ∈ tagProblems inventory path tag entry) :
    problem.repeatedTag? = none := by
  rw [tagProblems] at member
  split_ifs at member
  · rw [List.mem_singleton.mp member]
    rfl
  · rw [List.mem_singleton.mp member]
    rfl
  · rw [List.mem_singleton.mp member]
    rfl
  · cases member

theorem repeatedTag?_of_mem_keyProblems {tree : FileTree} {path : Path} {tag : String} {key : Yaml}
    {problem : Problem} (member : problem ∈ keyProblems tree path tag key) :
    problem.repeatedTag? = none := by
  rw [keyProblems] at member
  cases isText : key.text? with
  | none =>
      rw [isText] at member
      rw [List.mem_singleton.mp member]
      rfl
  | some name =>
      rw [isText] at member
      simp only [List.mem_ite_nil_left, List.mem_singleton] at member
      rw [member.2.2]
      rfl

theorem repeatedTag?_of_mem_attributeProblems {tree : FileTree} {path : Path} {tag : String}
    {entry : TagEntry} {problem : Problem}
    (member : problem ∈ attributeProblems tree inventory path tag entry) :
    problem.repeatedTag? = none := by
  cases entry with
  | malformed value =>
      rw [List.mem_singleton.mp member]
      rfl
  | attributes attributes =>
      rcases List.mem_append.mp member with own | ofKey
      · rcases List.mem_append.mp own with ofTested | ofAdditions
        · rw [testedProblems] at ofTested
          split at ofTested
          · cases ofTested
          · cases ofTested
          · rw [List.mem_singleton.mp ofTested]
            rfl
        · rw [additionsProblems] at ofAdditions
          split at ofAdditions
          · cases ofAdditions
          · obtain ⟨item, _, rfl⟩ := List.mem_map.mp ofAdditions
            rfl
          · rw [List.mem_singleton.mp ofAdditions]
            rfl
      · obtain ⟨⟨key, value⟩, _, isProblem⟩ := List.mem_flatMap.mp ofKey
        exact repeatedTag?_of_mem_keyProblems isProblem

/-- The tags that a row of tags is reported to repeat. -/
theorem repeatedTags_problemsOfTags (inventory : Inventory) (seen : List String)
    (entries : List (Path × String × TagEntry)) :
    (problemsOfTags inventory seen entries).filterMap Problem.repeatedTag? =
      repeatedIn seen (entries.map (·.2.1)) := by
  induction entries generalizing seen with
  | nil => rfl
  | cons item entries ih =>
      obtain ⟨path, tag, entry⟩ := item
      have ofTag : (tagProblems inventory path tag entry).filterMap Problem.repeatedTag? = [] :=
        List.filterMap_eq_nil_iff.mpr fun _ => repeatedTag?_of_mem_tagProblems
      rw [problemsOfTags, List.filterMap_append, List.filterMap_append, ofTag, ih, List.map_cons,
        repeatedIn]
      split_ifs
      · rfl
      · rfl

/-- The tags that head entries in those of the data files that can be read. -/
def headTags (tree : FileTree) (files : List Path) : List String :=
  (readable tree files).flatMap fun file => file.entries.map (·.1)

/-- **A report on data files names every tag once less than it heads entries.** -/
theorem count_repeatedTags (tree : FileTree) (files : List Path) (inventory : Inventory)
    (tag : String) :
    ((reportOn tree files inventory).problems.filterMap Problem.repeatedTag?).count tag =
      (headTags tree files).count tag - 1 := by
  have ofFiles : (readProblems tree files).filterMap Problem.repeatedTag? = [] := by
    refine List.filterMap_eq_nil_iff.mpr fun problem member => ?_
    obtain ⟨file, _, isProblem⟩ := List.mem_filterMap.mp member
    split at isProblem
    · cases isProblem
    · cases isProblem
      rfl
  have ofAttributes : ((entriesIn (readable tree files)).flatMap
      fun (path, tag, entry) => attributeProblems tree inventory path tag entry).filterMap
        Problem.repeatedTag? = [] := by
    refine List.filterMap_eq_nil_iff.mpr fun problem member => ?_
    obtain ⟨⟨path, tag, entry⟩, _, isProblem⟩ := List.mem_flatMap.mp member
    exact repeatedTag?_of_mem_attributeProblems isProblem
  have heads : (entriesIn (readable tree files)).map (·.2.1) = headTags tree files := by
    simp [entriesIn, headTags, List.map_flatMap, Function.comp_def]
  rw [← count_repeatedIn_nil, ← heads, ← repeatedTags_problemsOfTags inventory]
  simp only [reportOn, List.filterMap_append]
  rw [ofFiles, ofAttributes, List.nil_append, List.append_nil]

end Problems

end SampleMethods.DataFile
