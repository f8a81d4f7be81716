import Mathlib.Tactic.ByContra
import SampleMethods.DataFile.Validation
import SampleMethods.Proofs.DataFile.Contents

/-!
# The rules for the entries of tags

What a data file may say about a tag, and the problems that say that it says
something else. Each check is described by the problems that it finds
(`mem_testedProblems`, `mem_additionsProblems`, `mem_keyProblems`). There are
none just if the entry obeys the rules (`problems_eq_nil_iff`).
-/

set_option autoImplicit false

namespace SampleMethods.DataFile

/-- The attributes that the value of a tag is. A YAML null is an entry without any. -/
inductive HasAttributes : Yaml → List (Yaml × Yaml) → Prop where
  | null : HasAttributes .null []
  | mapping (attributes : List (Yaml × Yaml)) : HasAttributes (.mapping attributes) attributes

/-- The attributes of a tag in a file are as they have to be. -/
structure Obeys (tree : FileTree) (inventory : Inventory) (file : Path) (tag : String)
    (attributes : List (Yaml × Yaml)) : Prop where
  /-- The tag is in a source file. -/
  known : tag ∈ inventory.regionTags
  /-- Just those tags that no method has are said not to be tested. -/
  untested : (.string "tested", .bool false) ∈ attributes ↔ tag ∉ inventory.methodTags
  tested : ∀ value, (.string "tested", value) ∈ attributes → value = .bool false
  additions : ∀ value, (.string "additions", value) ∈ attributes →
    ∃ items, value = .sequence items ∧
      ∀ item ∈ items, ∃ other ∈ inventory.regionTags, item = .string other
  /-- Every other key names something that is there. -/
  tests : ∀ key value, (key, value) ∈ attributes → ∃ name, key = .string name ∧
    (name = "tested" ∨ name = "additions" ∨ tree.hasEntry (testPath file name) = true)

/-! ## The entries of files -/

/-- The entries of files are those of the files that can be read. -/
theorem mem_entriesIn_readable {tree : FileTree} {files : List Path} {file : Path} {tag : String}
    {entry : TagEntry} :
    (file, tag, entry) ∈ entriesIn (readable tree files) ↔
      file ∈ files ∧ ∃ data, read tree file = .ok data ∧ (tag, entry) ∈ data.entries := by
  constructor
  · intro member
    obtain ⟨data, isRead, isEntry⟩ := List.mem_flatMap.mp member
    obtain ⟨path, isFile, found⟩ := List.mem_filterMap.mp isRead
    obtain ⟨_, inFile, same⟩ := List.mem_map.mp isEntry
    cases same
    cases read : read tree path with
    | error failure =>
        rw [read] at found
        cases found
    | ok given =>
        rw [read] at found
        cases found
        obtain rfl := (read_eq_ok_iff_mapM.mp read).1
        exact ⟨isFile, data, read, inFile⟩
  · rintro ⟨isFile, data, isRead, isEntry⟩
    obtain rfl := (read_eq_ok_iff_mapM.mp isRead).1
    refine List.mem_flatMap.mpr ⟨data, List.mem_filterMap.mpr ⟨data.path, isFile, ?_⟩,
      List.mem_map.mpr ⟨(tag, entry), isEntry, rfl⟩⟩
    rw [isRead]
    rfl

/-! ## Problems with tags -/

theorem isUntested_iff {attributes : List (Yaml × Yaml)} (unlike : Yaml.UnlikeKeys attributes) :
    (TagEntry.attributes attributes).isUntested = true ↔
      (.string "tested", .bool false) ∈ attributes := by
  rw [← Yaml.entry?_eq_some_iff_mem unlike]
  simp only [TagEntry.isUntested, TagEntry.testedKey]
  cases Yaml.entry? attributes "tested" with
  | none => simp
  | some value =>
      cases value with
      | bool value => cases value <;> simp
      | _ => simp

/-- The branches leave out no combination of what is known about a tag. -/
theorem tagProblems_eq_nil_iff {inventory : Inventory} {path : Path} {tag : String}
    {entry : TagEntry} :
    tagProblems inventory path tag entry = [] ↔
      tag ∈ inventory.regionTags ∧ (entry.isUntested = true ↔ tag ∉ inventory.methodTags) := by
  rw [← List.contains_iff_mem, ← List.contains_iff_mem, tagProblems]
  cases inventory.regionTags.contains tag with
  | false => simp
  | true =>
      cases entry.isUntested with
      | false => cases inventory.methodTags.contains tag <;> simp
      | true => cases inventory.methodTags.contains tag <;> simp

/-- A row of tags has no problems if each has none and none comes up twice. -/
theorem problemsOfTags_eq_nil_iff {inventory : Inventory} {seen : List String}
    {entries : List (Path × String × TagEntry)} :
    problemsOfTags inventory seen entries = [] ↔
      (∀ item ∈ entries, tagProblems inventory item.1 item.2.1 item.2.2 = []) ∧
      (∀ item ∈ entries, item.2.1 ∉ seen) ∧
      entries.Pairwise fun earlier later => earlier.2.1 ≠ later.2.1 := by
  induction entries generalizing seen with
  | nil => simp [problemsOfTags]
  | cons item entries ih =>
      obtain ⟨path, tag, entry⟩ := item
      have notSeen : (if seen.contains tag then [Problem.repeatedTag tag] else []) = [] ↔
          tag ∉ seen := by
        rw [← List.contains_iff_mem]
        cases seen.contains tag <;> simp
      rw [problemsOfTags, List.append_eq_nil_iff, List.append_eq_nil_iff, notSeen, ih,
        List.forall_mem_cons, List.forall_mem_cons, List.pairwise_cons]
      constructor
      · rintro ⟨⟨here, unseen⟩, each, fresh, differ⟩
        refine ⟨⟨here, each⟩, ⟨unseen, fun item member => ?_⟩, fun item member => ?_, differ⟩
        · exact fun isSeen => fresh item member (List.mem_cons_of_mem _ isSeen)
        · exact fun same => fresh item member (same ▸ List.mem_cons_self)
      · rintro ⟨⟨here, each⟩, ⟨unseen, fresh⟩, others, differ⟩
        refine ⟨⟨here, unseen⟩, each, fun item member isSeen => ?_, differ⟩
        rcases List.mem_cons.mp isSeen with same | before
        · exact others item member same.symm
        · exact fresh item member before

/-! ## Problems with attributes -/

section Checks

variable {tree : FileTree} {inventory : Inventory} {file : Path} {tag : String}

theorem mem_testedProblems {attributes : List (Yaml × Yaml)} (unlike : Yaml.UnlikeKeys attributes)
    {problem : Problem} :
    problem ∈ testedProblems file tag attributes ↔
      ∃ given, (.string "tested", given) ∈ attributes ∧ given ≠ .bool false ∧
        problem = .wrongTested file tag given := by
  simp only [← Yaml.entry?_eq_some_iff_mem unlike, testedProblems, TagEntry.testedKey]
  cases Yaml.entry? attributes "tested" with
  | none => simp
  | some value =>
      cases value with
      | bool value => cases value <;> simp
      | _ => simp

theorem testedProblems_eq_nil_iff {attributes : List (Yaml × Yaml)}
    (unlike : Yaml.UnlikeKeys attributes) :
    testedProblems file tag attributes = [] ↔
      ∀ value, (.string "tested", value) ∈ attributes → value = .bool false := by
  rw [List.eq_nil_iff_forall_not_mem]
  constructor
  · intro none value isTested
    by_contra wrong
    exact none _ ((mem_testedProblems unlike).mpr ⟨value, isTested, wrong, rfl⟩)
  · intro each problem member
    obtain ⟨given, isTested, wrong, _⟩ := (mem_testedProblems unlike).mp member
    exact wrong (each given isTested)

theorem isKnownTag_eq_false_iff {value : Yaml} :
    isKnownTag inventory value = false ↔
      ∀ other, value.text? = some other → other ∉ inventory.regionTags := by
  rw [isKnownTag, Option.any_eq_false]
  refine forall₂_congr fun other _ => ?_
  rw [← List.contains_iff_mem, Bool.not_eq_true]

theorem isKnownTag_iff {value : Yaml} (tagFree : value.isTagFree = true) :
    isKnownTag inventory value = true ↔ ∃ tag ∈ inventory.regionTags, value = .string tag := by
  rw [isKnownTag, Option.any_eq_true]
  constructor
  · rintro ⟨tag, isText, known⟩
    exact ⟨tag, List.contains_iff_mem.mp known, (Yaml.text?_eq_some_iff tagFree).mp isText⟩
  · rintro ⟨tag, known, rfl⟩
    exact ⟨tag, rfl, List.contains_iff_mem.mpr known⟩

theorem mem_additionsProblems {attributes : List (Yaml × Yaml)}
    (unlike : Yaml.UnlikeKeys attributes) {problem : Problem} :
    problem ∈ additionsProblems inventory file tag attributes ↔
      ∃ given, (.string "additions", given) ∈ attributes ∧
        (((∀ items, given ≠ .sequence items) ∧ problem = .additionsNoList file tag) ∨
          ∃ items item, given = .sequence items ∧ item ∈ items ∧
            isKnownTag inventory item = false ∧ problem = .unknownAddition file tag item) := by
  simp only [← Yaml.entry?_eq_some_iff_mem unlike, additionsProblems, TagEntry.additionsKey]
  cases Yaml.entry? attributes "additions" with
  | none => simp
  | some value =>
      cases value with
      | sequence items =>
          simp only [List.mem_map, List.mem_filter, Bool.not_eq_true', Option.some.injEq]
          constructor
          · rintro ⟨item, ⟨member, unknown⟩, rfl⟩
            exact ⟨_, rfl, .inr ⟨items, item, rfl, member, unknown, rfl⟩⟩
          · rintro ⟨_, rfl, ⟨noList, _⟩ | ⟨_, item, ⟨⟩, member, unknown, rfl⟩⟩
            · exact absurd rfl (noList items)
            · exact ⟨item, ⟨member, unknown⟩, rfl⟩
      | _ => simp

theorem additionsProblems_eq_nil_iff {attributes : List (Yaml × Yaml)}
    (unlike : Yaml.UnlikeKeys attributes)
    (tagFree : ∀ entry ∈ attributes, entry.1.isTagFree = true ∧ entry.2.isTagFree = true) :
    additionsProblems inventory file tag attributes = [] ↔
      ∀ value, (.string "additions", value) ∈ attributes →
        ∃ items, value = .sequence items ∧
          ∀ item ∈ items, ∃ other ∈ inventory.regionTags, item = .string other := by
  have itemsFree : ∀ items, (.string "additions", .sequence items) ∈ attributes →
      ∀ item ∈ items, item.isTagFree = true := fun items isAdditions =>
    Yaml.areTagFree_iff.mp (tagFree _ isAdditions).2
  rw [List.eq_nil_iff_forall_not_mem]
  constructor
  · intro none value isAdditions
    by_cases isList : ∃ items, value = .sequence items
    · obtain ⟨items, rfl⟩ := isList
      refine ⟨items, rfl, fun item member => ?_⟩
      refine (isKnownTag_iff (itemsFree items isAdditions item member)).mp ?_
      by_contra unknown
      exact none _ ((mem_additionsProblems unlike).mpr ⟨_, isAdditions,
        .inr ⟨items, item, rfl, member, Bool.eq_false_iff.mpr unknown, rfl⟩⟩)
    · exact absurd ((mem_additionsProblems unlike).mpr ⟨value, isAdditions,
        .inl ⟨not_exists.mp isList, rfl⟩⟩) (none _)
  · intro each problem member
    obtain ⟨given, isAdditions, ⟨noList, _⟩ | ⟨items, item, rfl, isItem, unknown, _⟩⟩ :=
      (mem_additionsProblems unlike).mp member
    · obtain ⟨items, isList, _⟩ := each given isAdditions
      exact noList items isList
    · obtain ⟨_, same, known⟩ := each _ isAdditions
      cases same
      exact Bool.eq_false_iff.mp unknown
        ((isKnownTag_iff (itemsFree items isAdditions item isItem)).mpr (known item isItem))

theorem mem_keyProblems {key : Yaml} {problem : Problem} :
    problem ∈ keyProblems tree file tag key ↔
      (key.text? = none ∧ problem = .keyNoText file tag key) ∨
        ∃ name, key.text? = some name ∧ name ≠ "tested" ∧ name ≠ "additions" ∧
          tree.hasEntry (testPath file name) = false ∧
            problem = .missingTest file (testPath file name) := by
  rw [keyProblems]
  cases key.text? with
  | none => simp
  | some name =>
      simp only [TagEntry.testedKey, TagEntry.additionsKey, Bool.or_eq_true, beq_iff_eq]
      by_cases reserved : name = "tested" ∨ name = "additions"
      · rcases reserved with rfl | rfl
        · simp
        · simp
      · rw [if_neg reserved]
        rw [not_or] at reserved
        cases found : tree.hasEntry (testPath file name) with
        | true => simp [found]
        | false => simp [found, reserved]

theorem keyProblems_eq_nil_iff {key : Yaml} (tagFree : key.isTagFree = true) :
    keyProblems tree file tag key = [] ↔ ∃ name, key = .string name ∧
      (name = "tested" ∨ name = "additions" ∨ tree.hasEntry (testPath file name) = true) := by
  rw [List.eq_nil_iff_forall_not_mem]
  constructor
  · intro none
    cases isText : key.text? with
    | none => exact absurd (mem_keyProblems.mpr (.inl ⟨isText, rfl⟩)) (none _)
    | some name =>
        refine ⟨name, (Yaml.text?_eq_some_iff tagFree).mp isText, ?_⟩
        by_contra missing
        rw [not_or, not_or, Bool.not_eq_true] at missing
        obtain ⟨notTested, notAdditions, missing⟩ := missing
        exact none _ (mem_keyProblems.mpr
          (.inr ⟨name, isText, notTested, notAdditions, missing, rfl⟩))
  · rintro ⟨name, rfl, fine⟩ problem member
    obtain ⟨noText, _⟩ | ⟨_, same, notTested, notAdditions, missing, _⟩ := mem_keyProblems.mp member
    · cases noText
    · cases same
      rw [or_iff_right notTested, or_iff_right notAdditions, missing] at fine
      cases fine

end Checks

/-! ## The rules -/

theorem attributeProblems_eq_nil_iff {tree : FileTree} {inventory : Inventory} {path : Path}
    {tag : String} {attributes : List (Yaml × Yaml)} :
    attributeProblems tree inventory path tag (.attributes attributes) = [] ↔
      testedProblems path tag attributes = [] ∧
        additionsProblems inventory path tag attributes = [] ∧
        ∀ key value, (key, value) ∈ attributes → keyProblems tree path tag key = [] := by
  rw [attributeProblems, List.append_eq_nil_iff, List.append_eq_nil_iff, and_assoc,
    List.flatMap_eq_nil_iff, Prod.forall]

/-- **Attributes have no problems just if they obey the rules.** -/
theorem problems_eq_nil_iff_obeys {tree : FileTree} {inventory : Inventory} {path : Path}
    {tag : String} {attributes : List (Yaml × Yaml)} (unlike : Yaml.UnlikeKeys attributes)
    (tagFree : ∀ entry ∈ attributes, entry.1.isTagFree = true ∧ entry.2.isTagFree = true) :
    (tagProblems inventory path tag (.attributes attributes) = [] ∧
      attributeProblems tree inventory path tag (.attributes attributes) = []) ↔
      Obeys tree inventory path tag attributes := by
  rw [tagProblems_eq_nil_iff, isUntested_iff unlike, attributeProblems_eq_nil_iff,
    testedProblems_eq_nil_iff unlike, additionsProblems_eq_nil_iff unlike tagFree]
  constructor
  · rintro ⟨⟨known, untested⟩, tested, additions, tests⟩
    exact ⟨known, untested, tested, additions, fun key value member =>
      (keyProblems_eq_nil_iff (tagFree _ member).1).mp (tests key value member)⟩
  · rintro ⟨known, untested, tested, additions, tests⟩
    exact ⟨⟨known, untested⟩, tested, additions, fun key value member =>
      (keyProblems_eq_nil_iff (tagFree _ member).1).mpr (tests key value member)⟩

/-- The value of a tag has no problems just if it is an entry that obeys the rules. -/
theorem problems_eq_nil_iff {tree : FileTree} {inventory : Inventory} {path : Path}
    {tag : String} {value : Yaml} (tagFree : value.isTagFree = true)
    (unlike : ∀ attributes, value = .mapping attributes → Yaml.UnlikeKeys attributes) :
    (tagProblems inventory path tag (.ofValue value) = [] ∧
      attributeProblems tree inventory path tag (.ofValue value) = []) ↔
      ∃ attributes, HasAttributes value attributes ∧
        Obeys tree inventory path tag attributes := by
  have malformed : TagEntry.ofValue value = .malformed value →
      ((tagProblems inventory path tag (.ofValue value) = [] ∧
        attributeProblems tree inventory path tag (.ofValue value) = []) ↔ False) := by
    intro isMalformed
    rw [isMalformed]
    simp [attributeProblems]
  cases value with
  | null =>
      refine (problems_eq_nil_iff_obeys .nil fun _ member => nomatch member).trans ?_
      constructor
      · exact fun obeys => ⟨[], .null, obeys⟩
      · rintro ⟨_, ⟨⟩, obeys⟩
        exact obeys
  | mapping attributes =>
      rw [Yaml.isTagFree, Yaml.haveTagFree_iff] at tagFree
      refine (problems_eq_nil_iff_obeys (unlike attributes rfl) tagFree).trans ?_
      constructor
      · exact fun obeys => ⟨attributes, .mapping attributes, obeys⟩
      · rintro ⟨_, ⟨⟩, obeys⟩
        exact obeys
  | _ =>
      rw [malformed rfl, false_iff]
      rintro ⟨_, ⟨⟩, _⟩

end SampleMethods.DataFile
