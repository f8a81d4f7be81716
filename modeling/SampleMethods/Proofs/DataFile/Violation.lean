import Mathlib.Data.List.Basic
import SampleMethods.Proofs.DataFile.Validity
import SampleMethods.Proofs.FileTree.Search

/-!
# Violations of the rules

The rules for entries once more, each with the problem that says that an entry
breaks it. An entry breaks at most one of the three rules for its tag
(`BreaksTagRule.unique`), and its problems are those of the rules it breaks
(`mem_tagProblems`, `mem_attributeProblems`).

A validation reports every violation in the files that can be read, whatever
else is in these files (`violations_reported`). That is not so for a file with a
key that is no text. Such a file is not read at all, and of its entries nothing
is reported (`not_violations_reported_besideNumber`).
-/

set_option autoImplicit false

namespace SampleMethods.DataFile

/-- The value of a tag says that the tag is not tested. -/
def SaysUntested (value : Yaml) : Prop :=
  ∃ attributes, HasAttributes value attributes ∧ (.string "tested", .bool false) ∈ attributes

/-- A rule for the tag of an entry is broken. -/
inductive BreaksTagRule (inventory : Inventory) (file : Path) (tag : String) (value : Yaml) :
    Problem → Prop where
  | unknown : tag ∉ inventory.regionTags →
      BreaksTagRule inventory file tag value (.unknownTag file tag)
  | unattached : tag ∈ inventory.regionTags → tag ∉ inventory.methodTags →
      ¬ SaysUntested value → BreaksTagRule inventory file tag value (.unattachedTag file tag)
  | attached : tag ∈ inventory.regionTags → tag ∈ inventory.methodTags →
      SaysUntested value → BreaksTagRule inventory file tag value (.attachedUntested file tag)

/-- A rule for what an entry says about its tag is broken. -/
inductive BreaksValueRule (tree : FileTree) (inventory : Inventory) (file : Path) (tag : String)
    (value : Yaml) : Problem → Prop where
  /-- The entry is neither null nor a mapping. -/
  | form : (¬ ∃ attributes, HasAttributes value attributes) →
      BreaksValueRule tree inventory file tag value (.malformedEntry file tag value)
  | tested {attributes : List (Yaml × Yaml)} {given : Yaml} : HasAttributes value attributes →
      (.string "tested", given) ∈ attributes → given ≠ .bool false →
        BreaksValueRule tree inventory file tag value (.wrongTested file tag given)
  | additions {attributes : List (Yaml × Yaml)} {given : Yaml} : HasAttributes value attributes →
      (.string "additions", given) ∈ attributes → (∀ items, given ≠ .sequence items) →
        BreaksValueRule tree inventory file tag value (.additionsNoList file tag)
  | addition {attributes : List (Yaml × Yaml)} {items : List Yaml} {item : Yaml} :
      HasAttributes value attributes → (.string "additions", .sequence items) ∈ attributes →
        item ∈ items → (∀ other, item.text? = some other → other ∉ inventory.regionTags) →
          BreaksValueRule tree inventory file tag value (.unknownAddition file tag item)
  | key {attributes : List (Yaml × Yaml)} {key given : Yaml} : HasAttributes value attributes →
      (key, given) ∈ attributes → key.text? = none →
        BreaksValueRule tree inventory file tag value (.keyNoText file tag key)
  /-- A key that is none of the two with a meaning of its own names no file. -/
  | test {attributes : List (Yaml × Yaml)} {key given : Yaml} {name : String} :
      HasAttributes value attributes → (key, given) ∈ attributes → key.text? = some name →
        name ≠ "tested" → name ≠ "additions" → tree.hasEntry (testPath file name) = false →
          BreaksValueRule tree inventory file tag value (.missingTest file (testPath file name))

/-- A rule for an entry is broken. -/
def Breaks (tree : FileTree) (inventory : Inventory) (file : Path) (tag : String) (value : Yaml)
    (problem : Problem) : Prop :=
  BreaksTagRule inventory file tag value problem ∨
    BreaksValueRule tree inventory file tag value problem

section Rules

variable {tree : FileTree} {inventory : Inventory} {file : Path} {tag : String}

/-- **An entry breaks at most one of the rules for its tag.** -/
theorem BreaksTagRule.unique {value : Yaml} {problem other : Problem}
    (breaks : BreaksTagRule inventory file tag value problem)
    (breaksOther : BreaksTagRule inventory file tag value other) : problem = other := by
  cases breaks with
  | unknown unknown =>
      cases breaksOther with
      | unknown _ => rfl
      | unattached known _ _ => exact absurd known unknown
      | attached known _ _ => exact absurd known unknown
  | unattached known unattached tested =>
      cases breaksOther with
      | unknown unknown => exact absurd known unknown
      | unattached _ _ _ => rfl
      | attached _ attached _ => exact absurd attached unattached
  | attached known attached untested =>
      cases breaksOther with
      | unknown unknown => exact absurd known unknown
      | unattached _ unattached _ => exact absurd attached unattached
      | attached _ _ _ => rfl

/-! ## The problems of an entry -/

theorem ofValue_eq_attributes_iff {value : Yaml} {attributes : List (Yaml × Yaml)} :
    TagEntry.ofValue value = .attributes attributes ↔ HasAttributes value attributes := by
  constructor
  · intro same
    cases value with
    | null =>
        cases same
        exact .null
    | mapping entries =>
        cases same
        exact .mapping _
    | _ => cases same
  · rintro (_ | _)
    · rfl
    · rfl

theorem HasAttributes.unique {value : Yaml} {attributes others : List (Yaml × Yaml)}
    (has : HasAttributes value attributes) (hasToo : HasAttributes value others) :
    attributes = others := by
  cases has with
  | null =>
      cases hasToo
      rfl
  | mapping _ =>
      cases hasToo
      rfl

/-- The value of a tag has attributes, or it is malformed. -/
theorem hasAttributes_or_malformed (value : Yaml) :
    (∃ attributes, HasAttributes value attributes) ∨ TagEntry.ofValue value = .malformed value := by
  cases value with
  | null => exact .inl ⟨[], .null⟩
  | mapping attributes => exact .inl ⟨attributes, .mapping attributes⟩
  | _ => exact .inr rfl

section Values

variable {value : Yaml}
  (unlike : ∀ attributes, value = .mapping attributes → Yaml.UnlikeKeys attributes)

include unlike

theorem unlikeKeys_of_hasAttributes {attributes : List (Yaml × Yaml)}
    (has : HasAttributes value attributes) : Yaml.UnlikeKeys attributes := by
  cases has with
  | null => exact .nil
  | mapping attributes => exact unlike attributes rfl

theorem isUntested_ofValue_iff :
    (TagEntry.ofValue value).isUntested = true ↔ SaysUntested value := by
  rcases hasAttributes_or_malformed value with ⟨attributes, has⟩ | malformed
  · rw [ofValue_eq_attributes_iff.mpr has, isUntested_iff (unlikeKeys_of_hasAttributes unlike has)]
    constructor
    · exact fun untested => ⟨attributes, has, untested⟩
    · rintro ⟨others, hasToo, untested⟩
      obtain rfl := has.unique hasToo
      exact untested
  · rw [malformed]
    refine iff_of_false Bool.false_ne_true ?_
    rintro ⟨attributes, has, _⟩
    cases malformed.symm.trans (ofValue_eq_attributes_iff.mpr has)

theorem mem_tagProblems {problem : Problem} :
    problem ∈ tagProblems inventory file tag (.ofValue value) ↔
      BreaksTagRule inventory file tag value problem := by
  have saysSo := isUntested_ofValue_iff unlike
  simp only [tagProblems, List.contains_eq_mem]
  constructor
  · intro member
    by_cases known : tag ∈ inventory.regionTags
    · by_cases attached : tag ∈ inventory.methodTags
      · by_cases untested : SaysUntested value
        · obtain rfl : problem = .attachedUntested file tag := by
            simpa [known, attached, saysSo.mpr untested] using member
          exact .attached known attached untested
        · simp [known, attached, mt saysSo.mp untested] at member
      · by_cases untested : SaysUntested value
        · simp [known, attached, saysSo.mpr untested] at member
        · obtain rfl : problem = .unattachedTag file tag := by
            simpa [known, attached, mt saysSo.mp untested] using member
          exact .unattached known attached untested
    · obtain rfl : problem = .unknownTag file tag := by simpa [known] using member
      exact .unknown known
  · rintro (unknown | ⟨known, unattached, tested⟩ | ⟨known, attached, untested⟩)
    · simp [unknown]
    · simp [known, unattached, mt saysSo.mp tested]
    · simp [known, attached, saysSo.mpr untested]

omit unlike in
theorem mem_attributeProblems_of_hasAttributes {attributes : List (Yaml × Yaml)}
    (has : HasAttributes value attributes) {problem : Problem} :
    problem ∈ attributeProblems tree inventory file tag (.ofValue value) ↔
      problem ∈ testedProblems file tag attributes ∨
        problem ∈ additionsProblems inventory file tag attributes ∨
        ∃ key given, (key, given) ∈ attributes ∧ problem ∈ keyProblems tree file tag key := by
  rw [ofValue_eq_attributes_iff.mpr has, attributeProblems, List.mem_append, List.mem_append,
    List.mem_flatMap, or_assoc, Prod.exists]

/-- **The problems of an entry are those of the rules that it breaks.** -/
theorem mem_attributeProblems {problem : Problem} :
    problem ∈ attributeProblems tree inventory file tag (.ofValue value) ↔
      BreaksValueRule tree inventory file tag value problem := by
  constructor
  · intro member
    rcases hasAttributes_or_malformed value with ⟨attributes, has⟩ | malformed
    · have different := unlikeKeys_of_hasAttributes unlike has
      rcases (mem_attributeProblems_of_hasAttributes has).mp member with
        ofTested | ofAdditions | ⟨key, given, isEntry, ofKey⟩
      · obtain ⟨given, isTested, wrong, rfl⟩ := (mem_testedProblems different).mp ofTested
        exact .tested has isTested wrong
      · obtain ⟨given, isAdditions, ⟨noList, rfl⟩ | ⟨items, item, rfl, isItem, unknown, rfl⟩⟩ :=
          (mem_additionsProblems different).mp ofAdditions
        · exact .additions has isAdditions noList
        · exact .addition has isAdditions isItem (isKnownTag_eq_false_iff.mp unknown)
      · rcases mem_keyProblems.mp ofKey with
          ⟨noText, rfl⟩ | ⟨name, isText, notTested, notAdditions, missing, rfl⟩
        · exact .key has isEntry noText
        · exact .test has isEntry isText notTested notAdditions missing
    · rw [malformed, attributeProblems, List.mem_singleton] at member
      subst member
      refine .form ?_
      rintro ⟨attributes, has⟩
      cases malformed.symm.trans (ofValue_eq_attributes_iff.mpr has)
  · intro breaks
    cases breaks with
    | form malformed =>
        rw [(hasAttributes_or_malformed value).resolve_left malformed]
        exact List.mem_singleton_self _
    | tested has isTested wrong =>
        refine (mem_attributeProblems_of_hasAttributes has).mpr (.inl ?_)
        exact (mem_testedProblems (unlikeKeys_of_hasAttributes unlike has)).mpr
          ⟨_, isTested, wrong, rfl⟩
    | additions has isAdditions noList =>
        refine (mem_attributeProblems_of_hasAttributes has).mpr (.inr (.inl ?_))
        exact (mem_additionsProblems (unlikeKeys_of_hasAttributes unlike has)).mpr
          ⟨_, isAdditions, .inl ⟨noList, rfl⟩⟩
    | addition has isAdditions isItem unknown =>
        refine (mem_attributeProblems_of_hasAttributes has).mpr (.inr (.inl ?_))
        exact (mem_additionsProblems (unlikeKeys_of_hasAttributes unlike has)).mpr
          ⟨_, isAdditions, .inr ⟨_, _, rfl, isItem, isKnownTag_eq_false_iff.mpr unknown, rfl⟩⟩
    | key has isEntry noText =>
        refine (mem_attributeProblems_of_hasAttributes has).mpr (.inr (.inr ⟨_, _, isEntry, ?_⟩))
        exact mem_keyProblems.mpr (.inl ⟨noText, rfl⟩)
    | test has isEntry isText notTested notAdditions missing =>
        refine (mem_attributeProblems_of_hasAttributes has).mpr (.inr (.inr ⟨_, _, isEntry, ?_⟩))
        exact mem_keyProblems.mpr (.inr ⟨_, isText, notTested, notAdditions, missing, rfl⟩)

end Values

end Rules

/-! ## The problems of a validation -/

/-- The entries of a file are read if all of its keys are texts. -/
theorem mem_entriesIn_of_texts {tree : FileTree} {files : List Path} {file : Path}
    {given : List (Yaml × Yaml)} (isFile : file ∈ files) (contents : Contents tree file given)
    (texts : ∀ entry ∈ given, ∃ tag, entry.1.text? = some tag) {key value : Yaml} {tag : String}
    (member : (key, value) ∈ given) (isText : key.text? = some tag) :
    (file, tag, .ofValue value) ∈ entriesIn (readable tree files) := by
  obtain ⟨entries, keys, each⟩ := exists_mapM_entryOf texts
  exact mem_entriesIn_readable.mpr ⟨isFile, ⟨file, entries⟩,
    read_eq_ok_iff_mapM.mpr ⟨rfl, given, contents, keys⟩, each key value tag member isText⟩

/-- The problems of each tag are among those of all tags, whatever tags are in front. -/
theorem mem_problemsOfTags {inventory : Inventory} {seen : List String}
    {entries : List (Path × String × TagEntry)} {path : Path} {tag : String} {entry : TagEntry}
    (member : (path, tag, entry) ∈ entries) {problem : Problem}
    (isProblem : problem ∈ tagProblems inventory path tag entry) :
    problem ∈ problemsOfTags inventory seen entries := by
  induction entries generalizing seen with
  | nil => cases member
  | cons first entries ih =>
      rw [problemsOfTags]
      rcases List.mem_cons.mp member with rfl | behind
      · exact List.mem_append_left _ (List.mem_append_left _ isProblem)
      · exact List.mem_append_right _ (ih behind)

theorem reported_of_breaks {tree : FileTree} {files : List Path} {file : Path}
    {inventory : Inventory} {given : List (Yaml × Yaml)} (isFile : file ∈ files)
    (contents : Contents tree file given)
    (texts : ∀ entry ∈ given, ∃ tag, entry.1.text? = some tag) {key value : Yaml} {tag : String}
    (member : (key, value) ∈ given) (isText : key.text? = some tag) {problem : Problem}
    (breaks : Breaks tree inventory file tag value problem) :
    problem ∈ (reportOn tree files inventory).problems := by
  have unlike : ∀ attributes, value = .mapping attributes → Yaml.UnlikeKeys attributes := by
    obtain ⟨_, _, writes⟩ := contents
    rintro attributes rfl
    exact writes.attributes_unlikeKeys member
  have isEntry := mem_entriesIn_of_texts isFile contents texts member isText
  rcases breaks with breaks | breaks
  · exact List.mem_append_left _ (List.mem_append_right _
      (mem_problemsOfTags isEntry ((mem_tagProblems unlike).mpr breaks)))
  · exact List.mem_append_right _ (List.mem_flatMap.mpr
      ⟨_, isEntry, (mem_attributeProblems unlike).mpr breaks⟩)

/-- A file with a key that is no text is reported with the first such key. -/
theorem reported_of_keyNoText {tree : FileTree} {files : List Path} {file : Path}
    (inventory : Inventory) {before after : List (Yaml × Yaml)} {key value : Yaml}
    (isFile : file ∈ files) (contents : Contents tree file (before ++ (key, value) :: after))
    (texts : ∀ entry ∈ before, ∃ tag, entry.1.text? = some tag) (noText : key.text? = none) :
    .unreadable file (.because ("region tag " ++ describe key ++ " is not a string")) ∈
      (reportOn tree files inventory).problems := by
  refine List.mem_append_left _ (List.mem_append_left _ ?_)
  refine List.mem_filterMap.mpr ⟨file, isFile, ?_⟩
  rw [contents.read_eq, mapM_entryOf_eq_error texts noText]
  rfl

/-- The lines of a problem stand in a row among the messages. -/
theorem lines_infix_messages {report : Report} {problem : Problem}
    (member : problem ∈ report.problems) : problem.lines <:+: report.messages := by
  rw [Report.messages, List.flatMap_def]
  exact List.infix_of_mem_flatten (List.mem_map_of_mem member)

/-- **A validation reports every rule that is broken in a file with texts for keys**, in full and
in a row, whatever else there is in the file and in other files; and of the rules for its tag an
entry breaks at most one. In place of all that, a file with another key is reported with the first
such key. -/
theorem violations_reported {tree : FileTree} {path file : Path} {files : List Path}
    (areFound : find tree path = .ok files) (inventory : Inventory) {given : List (Yaml × Yaml)}
    (isFile : file ∈ files) (contents : Contents tree file given) :
    ∃ report, validate tree path inventory = .ok report ∧
      ((∀ entry ∈ given, ∃ tag, entry.1.text? = some tag) →
        ∀ key value tag, (key, value) ∈ given → key.text? = some tag →
          (∀ problem, Breaks tree inventory file tag value problem →
            problem.lines <:+: report.messages) ∧
          ∀ problem other, BreaksTagRule inventory file tag value problem →
            BreaksTagRule inventory file tag value other → problem = other) ∧
      ∀ before key value after, given = before ++ (key, value) :: after →
        (∀ entry ∈ before, ∃ tag, entry.1.text? = some tag) → key.text? = none →
          (Problem.unreadable file
            (.because ("region tag " ++ describe key ++ " is not a string"))).lines <:+:
              report.messages := by
  refine ⟨_, validate_of_find areFound inventory, ?_, ?_⟩
  · intro texts key value tag member isText
    refine ⟨fun problem breaks => ?_, fun problem other => BreaksTagRule.unique⟩
    have reported := reported_of_breaks isFile contents texts member isText breaks
    exact lines_infix_messages reported
  · rintro before key value after rfl texts noText
    have reported := reported_of_keyNoText inventory isFile contents texts noText
    exact lines_infix_messages reported

/-! ## A file with a key that is no text -/

/-- Whether a text writes a mapping that has a tag and says nothing about it. -/
def hasEmptyEntry (text tag : String) : Bool :=
  match Yaml.ofText text with
  | .ok (.mapping entries) =>
    entries.any fun (key, value) => key.isLike (.string tag) && value.isLike .null
  | _ => false

theorem exists_mapping_of_hasEmptyEntry {text tag : String} (has : hasEmptyEntry text tag = true) :
    ∃ entries, Yaml.ofText text = .ok (.mapping entries) ∧ (.string tag, .null) ∈ entries := by
  unfold hasEmptyEntry at has
  split at has
  next entries written =>
    obtain ⟨⟨key, value⟩, member, alike⟩ := List.any_eq_true.mp has
    refine ⟨entries, written, ?_⟩
    cases key with
    | string text =>
        cases value with
        | null =>
            obtain rfl : text = tag := by simpa [Yaml.isLike] using alike
            exact member
        | _ => simp [Yaml.isLike] at alike
    | _ => simp [Yaml.isLike] at alike
  next => cases has

/-- A directory with one data file of a text. -/
def treeWith (text : String) : FileTree where
  root := .directory [(Text.bytes fileName, .file (some text))]
  workingDirectory := []

/-- The data file of that directory. -/
def onlyFile : Path :=
  .ofString ("/" ++ fileName)

theorem exists_contents_treeWith {text tag : String}
    (read : (treeWith text).readText onlyFile = .ok text)
    (notBlank : Text.isAllBlank text.toList = false) (has : hasEmptyEntry text tag = true) :
    ∃ given, Contents (treeWith text) onlyFile given ∧ (.string tag, .null) ∈ given := by
  obtain ⟨given, written, member⟩ := exists_mapping_of_hasEmptyEntry has
  exact ⟨given, ⟨text, read, .mapping notBlank written⟩, member⟩

theorem find_treeWith (text : String) :
    find (treeWith text) (.ofString "/") = .ok [onlyFile] := by
  refine FileTree.search_eq_ok_iff.mpr
    ⟨FileTree.permits_of_refuses_eq_none (fun _ => rfl) _, ?_⟩
  exact (List.mergeSort_singleton onlyFile).symm

theorem violations_reported_ghost :
    ∃ given report, find (treeWith "ghost:\n") (.ofString "/") = .ok [onlyFile] ∧
      Contents (treeWith "ghost:\n") onlyFile given ∧ (.string "ghost", .null) ∈ given ∧
        validate (treeWith "ghost:\n") (.ofString "/") .empty = .ok report ∧
        (Problem.unknownTag onlyFile "ghost").lines <:+: report.messages := by
  have areFound := find_treeWith "ghost:\n"
  obtain ⟨given, contents, member⟩ : ∃ given, Contents (treeWith "ghost:\n") onlyFile given ∧
      (.string "ghost", .null) ∈ given :=
    exists_contents_treeWith (by decide +kernel) (by decide +kernel) (by decide +kernel)
  have isRead : (read (treeWith "ghost:\n") onlyFile).toOption.isSome = true := by decide +kernel
  have texts : ∀ entry ∈ given, ∃ tag, entry.1.text? = some tag := by
    cases keys : given.mapM entryOf with
    | ok entries => exact text_of_mapM_entryOf keys
    | error failure =>
        rw [contents.read_eq, keys] at isRead
        cases isRead
  obtain ⟨report, validated, reported, _⟩ :=
    violations_reported areFound .empty List.mem_cons_self contents
  exact ⟨given, report, areFound, contents, member, validated,
    (reported texts _ _ "ghost" member rfl).1 _ (.inl (.unknown List.not_mem_nil))⟩

/-- **The violations of a file with a number for a key are not reported.** -/
theorem not_violations_reported_besideNumber :
    ∃ given report, find (treeWith "3:\nghost:\n") (.ofString "/") = .ok [onlyFile] ∧
      Contents (treeWith "3:\nghost:\n") onlyFile given ∧ (.string "ghost", .null) ∈ given ∧
        Breaks (treeWith "3:\nghost:\n") .empty onlyFile "ghost" .null
          (.unknownTag onlyFile "ghost") ∧
        validate (treeWith "3:\nghost:\n") (.ofString "/") .empty = .ok report ∧
        ¬ (Problem.unknownTag onlyFile "ghost").lines <:+: report.messages := by
  have areFound := find_treeWith "3:\nghost:\n"
  obtain ⟨given, contents, member⟩ : ∃ given, Contents (treeWith "3:\nghost:\n") onlyFile given ∧
      (.string "ghost", .null) ∈ given :=
    exists_contents_treeWith (by decide +kernel) (by decide +kernel) (by decide +kernel)
  exact ⟨given, _, areFound, contents, member, .inl (.unknown List.not_mem_nil),
    validate_of_find areFound .empty, by decide +kernel⟩

end SampleMethods.DataFile
