import SampleMethods.Proofs.DataFile.Rules
import SampleMethods.Proofs.Failure
import SampleMethods.Proofs.Text.Line

/-!
# When data files are valid

A validation finds the data files of a project valid just if all of them can be
read, every entry obeys the rules, and no tag has an entry in two of them
(`isValid_validate_iff`). It says so in three ways that agree: by its verdict,
by having no messages, and by the last line of its report.
-/

set_option autoImplicit false

namespace SampleMethods.DataFile

/-! ## The entries of a file -/

section OneFile

variable {tree : FileTree} {file : Path}

/-- The entries of a file with its path, or none if it cannot be read. -/
def readEntries (tree : FileTree) (file : Path) : List (Path × String × TagEntry) :=
  match read tree file with
  | .ok data => data.entries.map fun (tag, entry) => (data.path, tag, entry)
  | .error _ => []

theorem exists_read_iff (tagFree : TagFree tree file) :
    (∃ data, read tree file = .ok data) ↔ ∃ pairs, Contents tree file (texts pairs) := by
  constructor
  · rintro ⟨data, isRead⟩
    obtain ⟨_, pairs, contents, _⟩ := (read_eq_ok_iff tagFree).mp isRead
    exact ⟨pairs, contents⟩
  · rintro ⟨pairs, contents⟩
    exact ⟨⟨file, described pairs⟩, (read_eq_ok_iff tagFree).mpr ⟨rfl, pairs, contents, rfl⟩⟩

theorem mem_readEntries (tagFree : TagFree tree file) {item : Path × String × TagEntry} :
    item ∈ readEntries tree file ↔ ∃ pairs, Contents tree file (texts pairs) ∧
      ∃ tag value, (tag, value) ∈ pairs ∧ item = (file, tag, .ofValue value) := by
  unfold readEntries
  cases isRead : read tree file with
  | error failure =>
      refine iff_of_false List.not_mem_nil ?_
      rintro ⟨pairs, contents, _⟩
      obtain ⟨data, isData⟩ := (exists_read_iff tagFree).mpr ⟨pairs, contents⟩
      cases isRead.symm.trans isData
  | ok data =>
      obtain ⟨path, entries⟩ := data
      obtain ⟨rfl, pairs, contents, rfl⟩ := (read_eq_ok_iff tagFree).mp isRead
      simp only [described, List.map_map, List.mem_map]
      constructor
      · rintro ⟨⟨tag, value⟩, member, rfl⟩
        exact ⟨pairs, contents, tag, value, member, rfl⟩
      · rintro ⟨others, otherContents, tag, value, member, rfl⟩
        obtain rfl := texts_injective (contents.unique otherContents)
        exact ⟨(tag, value), member, rfl⟩

/-- A file has no tag twice. -/
theorem readEntries_distinct (tagFree : TagFree tree file) :
    (readEntries tree file).Pairwise fun earlier later => earlier.2.1 ≠ later.2.1 := by
  unfold readEntries
  cases isRead : read tree file with
  | error failure => exact .nil
  | ok data =>
      obtain ⟨path, entries⟩ := data
      obtain ⟨rfl, pairs, ⟨_, _, writes⟩, rfl⟩ := (read_eq_ok_iff tagFree).mp isRead
      have distinct := Yaml.UnlikeKeys.texts_nodup writes.unlikeKeys
      rw [List.Nodup, List.pairwise_map] at distinct
      simp only [described, List.map_map, List.pairwise_map]
      exact distinct

end OneFile

/-! ## The entries of all files -/

section AllFiles

variable {tree : FileTree} {files : List Path}

theorem entriesIn_readable (tree : FileTree) (files : List Path) :
    entriesIn (readable tree files) = files.flatMap (readEntries tree) := by
  induction files with
  | nil => rfl
  | cons file files ih =>
      rw [List.flatMap_cons, ← ih, readEntries, readable, List.filterMap_cons]
      cases read tree file with
      | error failure => rfl
      | ok data => rfl

theorem readProblems_eq_nil_iff (tagFree : ∀ file ∈ files, TagFree tree file) :
    readProblems tree files = [] ↔
      ∀ file ∈ files, ∃ pairs, Contents tree file (texts pairs) := by
  rw [readProblems, List.filterMap_eq_nil_iff]
  refine forall₂_congr fun file member => ?_
  rw [← exists_read_iff (tagFree file member)]
  cases read tree file with
  | error failure => simp
  | ok data => simp

/-- No tag comes up twice just if no two files have one in common. -/
theorem entries_distinct_iff (tagFree : ∀ file ∈ files, TagFree tree file) :
    (files.flatMap (readEntries tree)).Pairwise (fun earlier later => earlier.2.1 ≠ later.2.1) ↔
      files.Pairwise fun file other => ∀ pairs others, Contents tree file (texts pairs) →
        Contents tree other (texts others) → ∀ tag value otherValue,
          (tag, value) ∈ pairs → (tag, otherValue) ∉ others := by
  rw [List.pairwise_flatMap]
  constructor
  · rintro ⟨_, apart⟩
    refine apart.imp_of_mem fun isFile isOther apart => ?_
    intro pairs others contents otherContents tag value otherValue member otherMember
    have inFile := (mem_readEntries (tagFree _ isFile)).mpr
      ⟨pairs, contents, tag, value, member, rfl⟩
    have inOther := (mem_readEntries (tagFree _ isOther)).mpr
      ⟨others, otherContents, tag, otherValue, otherMember, rfl⟩
    exact apart _ inFile _ inOther rfl
  · intro apart
    refine ⟨fun file member => readEntries_distinct (tagFree file member),
      apart.imp_of_mem fun isFile isOther apart => ?_⟩
    intro item isItem other isOtherItem same
    obtain ⟨pairs, contents, tag, value, member, rfl⟩ :=
      (mem_readEntries (tagFree _ isFile)).mp isItem
    obtain ⟨others, otherContents, _, otherValue, otherMember, rfl⟩ :=
      (mem_readEntries (tagFree _ isOther)).mp isOtherItem
    cases same
    exact apart pairs others contents otherContents tag value otherValue member otherMember

end AllFiles

/-! ## Validations -/

/-- Data files are as they have to be. -/
structure Valid (tree : FileTree) (files : List Path) (inventory : Inventory) : Prop where
  /-- Every file is read, and writes entries for texts. -/
  readable : ∀ file ∈ files, ∃ entries, Contents tree file entries ∧
    ∀ entry ∈ entries, ∃ tag, entry.1 = .string tag
  obeyed : ∀ file ∈ files, ∀ entries, Contents tree file entries →
    ∀ tag value, (.string tag, value) ∈ entries →
      ∃ attributes, HasAttributes value attributes ∧ Obeys tree inventory file tag attributes
  /-- No tag has an entry in two files. -/
  apart : files.Pairwise fun file other => ∀ entries others,
    Contents tree file entries → Contents tree other others →
      ∀ tag value otherValue, (.string tag, value) ∈ entries → (.string tag, otherValue) ∉ others

section Validations

variable {tree : FileTree} {files : List Path}

theorem problems_of_entry_iff {inventory : Inventory} {file : Path} {pairs : List (String × Yaml)}
    (tagFree : TagFree tree file) (contents : Contents tree file (texts pairs)) {tag : String}
    {value : Yaml} (member : (tag, value) ∈ pairs) :
    (tagProblems inventory file tag (.ofValue value) = [] ∧
      attributeProblems tree inventory file tag (.ofValue value) = []) ↔
      ∃ attributes, HasAttributes value attributes ∧ Obeys tree inventory file tag attributes := by
  obtain ⟨text, read, writes⟩ := contents
  have isEntry := mem_texts.mpr member
  refine problems_eq_nil_iff (writes.isTagFree (tagFree text read) isEntry).2 ?_
  rintro attributes rfl
  exact writes.attributes_unlikeKeys isEntry

/-- A report has no problems just if its three passes over the files find none. -/
theorem isValid_iff (tagFree : ∀ file ∈ files, TagFree tree file)
    (inventory : Inventory) :
    (reportOn tree files inventory).isValid = true ↔
      (∀ file ∈ files, ∃ pairs, Contents tree file (texts pairs)) ∧
      (∀ item ∈ files.flatMap (readEntries tree),
        tagProblems inventory item.1 item.2.1 item.2.2 = [] ∧
          attributeProblems tree inventory item.1 item.2.1 item.2.2 = []) ∧
      files.Pairwise fun file other => ∀ pairs others,
        Contents tree file (texts pairs) → Contents tree other (texts others) →
          ∀ tag value otherValue, (tag, value) ∈ pairs → (tag, otherValue) ∉ others := by
  rw [Report.isValid, List.isEmpty_iff, reportOn]
  simp only [entriesIn_readable]
  rw [List.append_eq_nil_iff, List.append_eq_nil_iff, readProblems_eq_nil_iff tagFree,
    problemsOfTags_eq_nil_iff, entries_distinct_iff tagFree, List.flatMap_eq_nil_iff]
  constructor
  · rintro ⟨⟨readable, tags, _, apart⟩, attributes⟩
    exact ⟨readable, fun item member => ⟨tags item member, attributes item member⟩, apart⟩
  · rintro ⟨readable, each, apart⟩
    exact ⟨⟨readable, fun item member => (each item member).1,
      fun _ _ => List.not_mem_nil, apart⟩, fun item member => (each item member).2⟩

theorem isValid_iff_valid (tagFree : ∀ file ∈ files, TagFree tree file)
    (inventory : Inventory) :
    (reportOn tree files inventory).isValid = true ↔ Valid tree files inventory := by
  rw [isValid_iff tagFree]
  constructor
  · rintro ⟨readable, each, apart⟩
    refine ⟨fun file isFile => ?_, fun file isFile entries contents tag value member => ?_,
      apart.imp_of_mem fun {file other} isFile isOther apart => ?_⟩
    · obtain ⟨pairs, contents⟩ := readable file isFile
      exact ⟨texts pairs, contents, eq_texts_iff.mp ⟨pairs, rfl⟩⟩
    · obtain ⟨pairs, asPairs⟩ := readable file isFile
      obtain rfl := contents.unique asPairs
      have isPair := mem_texts.mp member
      refine (problems_of_entry_iff (tagFree file isFile) asPairs isPair).mp ?_
      exact each (file, tag, .ofValue value) (List.mem_flatMap.mpr ⟨file, isFile,
        (mem_readEntries (tagFree file isFile)).mpr ⟨pairs, asPairs, tag, value, isPair, rfl⟩⟩)
    · intro entries others contents otherContents tag value otherValue member otherMember
      obtain ⟨pairs, asPairs⟩ := readable file isFile
      obtain ⟨otherPairs, asOtherPairs⟩ := readable other isOther
      obtain rfl := contents.unique asPairs
      obtain rfl := otherContents.unique asOtherPairs
      exact apart pairs otherPairs asPairs asOtherPairs tag value otherValue
        (mem_texts.mp member) (mem_texts.mp otherMember)
  · rintro ⟨readable, obeyed, apart⟩
    refine ⟨fun file isFile => ?_, fun item isItem => ?_, apart.imp fun {file other} apart => ?_⟩
    · obtain ⟨entries, contents, isText⟩ := readable file isFile
      obtain ⟨pairs, rfl⟩ := eq_texts_iff.mpr isText
      exact ⟨pairs, contents⟩
    · obtain ⟨file, isFile, isEntry⟩ := List.mem_flatMap.mp isItem
      obtain ⟨pairs, contents, tag, value, member, rfl⟩ :=
        (mem_readEntries (tagFree file isFile)).mp isEntry
      exact (problems_of_entry_iff (tagFree file isFile) contents member).mpr
        (obeyed file isFile _ contents tag value (mem_texts.mpr member))
    · intro pairs others contents otherContents tag value otherValue member otherMember
      exact apart _ _ contents otherContents tag value otherValue (mem_texts.mpr member)
        (mem_texts.mpr otherMember)

end Validations

/-! ## Reports -/

theorem Problem.lines_ne_nil (problem : Problem) : problem.lines ≠ [] := by
  cases problem <;> exact List.cons_ne_nil _ _

/-- Every problem has a message. -/
theorem Report.messages_eq_nil_iff (report : Report) :
    report.messages = [] ↔ report.isValid = true := by
  rw [messages, List.flatMap_eq_nil_iff, isValid, List.isEmpty_iff]
  constructor
  · intro none
    rw [List.eq_nil_iff_forall_not_mem]
    exact fun problem member => problem.lines_ne_nil (none problem member)
  · intro none problem member
    rw [none] at member
    cases member

/-- A row of messages in front of a text does not change its last line. -/
theorem getLast?_splitLines_messages (messages : List String) {after : List Char}
    (nonempty : Text.splitLines after ≠ []) :
    (Text.splitLines ((messages.map (· ++ "\n")).flatMap String.toList ++ after)).getLast? =
      (Text.splitLines after).getLast? := by
  induction messages with
  | nil => rfl
  | cons message messages ih =>
      have here : ((message :: messages).map (· ++ "\n")).flatMap String.toList ++ after =
          message.toList ++ '\n' ::
            ((messages.map (· ++ "\n")).flatMap String.toList ++ after) := by
        simp
      rw [here, Text.getLast?_splitLines_append, ih]
      intro none
      rw [none] at ih
      exact nonempty (List.getLast?_eq_none_iff.mp ih.symm)

theorem Report.splitLines_verdict (report : Report) :
    Text.splitLines (report.verdict ++ "\n").toList = [report.verdict.toList] := by
  rw [verdict]
  cases report.isValid with
  | true => decide
  | false => decide

/-- The last line of a report is its verdict, whatever its messages are. -/
theorem Report.getLast?_render (report : Report) :
    (Text.splitLines report.render.toList).getLast? = some report.verdict.toList := by
  have text : report.render.toList =
      (report.messages.map (· ++ "\n")).flatMap String.toList ++
        (report.verdict ++ "\n").toList := by
    simp [render, String.toList_join]
  have verdictLine := report.splitLines_verdict
  rw [text, getLast?_splitLines_messages, verdictLine]
  · rfl
  · rw [verdictLine]
    exact List.cons_ne_nil _ _

theorem Report.verdict_eq_iff (report : Report) :
    report.verdict = "All files are valid." ↔ report.isValid = true := by
  rw [verdict]
  cases report.isValid with
  | true => simp
  | false => simp

/-- A validation is a report on the data files that are found. -/
theorem validate_eq_ok_iff {tree : FileTree} {path : Path} {inventory : Inventory}
    {report : Report} :
    validate tree path inventory = .ok report ↔
      ∃ files, find tree path = .ok files ∧ report = reportOn tree files inventory := by
  simp only [validate, bind_eq_ok_iff, pure_eq_ok_iff]

theorem validate_of_find {tree : FileTree} {path : Path} {files : List Path}
    (areFound : find tree path = .ok files) (inventory : Inventory) :
    validate tree path inventory = .ok (reportOn tree files inventory) :=
  validate_eq_ok_iff.mpr ⟨files, areFound, rfl⟩

/-- **Data files without tags are found valid just if they are as they have to be**, and the
messages and the last line of the report say the same. -/
theorem isValid_validate_iff {tree : FileTree} {path : Path} {files : List Path}
    (areFound : find tree path = .ok files) (tagFree : ∀ file ∈ files, TagFree tree file)
    (inventory : Inventory) :
    ∃ report, validate tree path inventory = .ok report ∧
      (report.isValid = true ↔ Valid tree files inventory) ∧
      (report.isValid = true ↔ report.messages = []) ∧
      ((Text.splitLines report.render.toList).getLast? = some "All files are valid.".toList ↔
        report.isValid = true) := by
  refine ⟨_, validate_of_find areFound inventory, isValid_iff_valid tagFree inventory,
    (Report.messages_eq_nil_iff _).symm, ?_⟩
  rw [Report.getLast?_render, Option.some.injEq, String.toList_inj, Report.verdict_eq_iff]

/-- A directory with a data file that describes one tag. -/
def describedTree : FileTree where
  root := .directory [(Text.bytes fileName, .file (some "setup:\n  tested: false\n"))]
  workingDirectory := []

theorem describedTree_valid :
    ∃ files, find describedTree (.ofString "/") = .ok files ∧
      (∀ file ∈ files, TagFree describedTree file) ∧
      Valid describedTree files ⟨["setup"], []⟩ := by
  obtain ⟨files, areFound, tagFree, valid⟩ : ∃ files,
      find describedTree (.ofString "/") = .ok files ∧
        (∀ file ∈ files, TagFree describedTree file) ∧
        (reportOn describedTree files ⟨["setup"], []⟩).isValid = true :=
    exists_ok (by decide +kernel)
  obtain ⟨_, validated, isValid, _⟩ := isValid_validate_iff areFound tagFree ⟨["setup"], []⟩
  cases (validate_of_find areFound ⟨["setup"], []⟩).symm.trans validated
  exact ⟨files, areFound, tagFree, isValid.mp valid⟩

end SampleMethods.DataFile
