import SampleMethods.DataFile.TestFile
import SampleMethods.Proofs.DataFile.Repeats
import SampleMethods.Proofs.DataFile.Validity
import SampleMethods.Proofs.FileTree.Addition
import SampleMethods.Proofs.FileTree.Reach

/-!
# More data files

When files are added to a tree, data files or others, and none of the files with
tests that its data files name comes to be there by that, then a validation
reports all that it reported before, each message at least as often
(`messages_count_le_of_adds`). A new file may take over the first entry of a tag;
then another entry is reported to repeat it.
-/

set_option autoImplicit false

namespace SampleMethods.DataFile

/-- One of the data files, which can be read, names the file with tests. -/
def NamesTest (tree : FileTree) (files : List Path) (test : Path) : Prop :=
  ∃ file ∈ files, ∃ data, read tree file = .ok data ∧
    ∃ tag attributes, (tag, .attributes attributes) ∈ data.entries ∧
      ∃ key value, (key, value) ∈ attributes ∧ ∃ name, key.text? = some name ∧
        name ≠ "tested" ∧ name ≠ "additions" ∧ test = testPath file name

/-- The files with tests that data files name are among those of all their keys. -/
theorem NamesTest.mem_testPaths {tree : FileTree} {path test : Path} {files : List Path}
    (areFound : find tree path = .ok files) (names : NamesTest tree files test) :
    test ∈ testPaths tree path := by
  obtain ⟨file, isFile, data, isRead, tag, attributes, isEntry, key, value, isKey, name, isName,
    _, _, rfl⟩ := names
  have member := mem_entriesIn_readable.mpr ⟨isFile, data, isRead, isEntry⟩
  simp only [testPaths, areFound]
  refine List.mem_flatMap.mpr ⟨(file, tag, .attributes attributes), member, ?_⟩
  exact List.mem_map.mpr ⟨name, List.mem_filterMap.mpr ⟨(key, value), isKey, isName⟩, rfl⟩

section Additions

variable {tree other : FileTree} {path : Path} {files otherFiles : List Path}

/-- The problems of attributes depend on the tree only by the files with tests that they name. -/
theorem attributeProblems_eq
    (sameTests : ∀ test, NamesTest tree files test → other.hasEntry test = tree.hasEntry test)
    {inventory : Inventory} {file : Path} {tag : String} {entry : TagEntry}
    (member : (file, tag, entry) ∈ entriesIn (readable tree files)) :
    attributeProblems tree inventory file tag entry =
      attributeProblems other inventory file tag entry := by
  cases entry with
  | malformed value => rfl
  | attributes attributes =>
      obtain ⟨isFile, data, isRead, isEntry⟩ := mem_entriesIn_readable.mp member
      refine congrArg (_ ++ ·) (List.flatMap_congr fun ⟨key, value⟩ isKey => ?_)
      change keyProblems tree file tag key = keyProblems other file tag key
      rw [keyProblems, keyProblems]
      cases isText : key.text? with
      | none => rfl
      | some name =>
          simp only [TagEntry.testedKey, TagEntry.additionsKey, Bool.or_eq_true, beq_iff_eq]
          by_cases reserved : name = "tested" ∨ name = "additions"
          · rw [if_pos reserved, if_pos reserved]
          · obtain ⟨notTested, notAdditions⟩ := not_or.mp reserved
            have kept : other.hasEntry (testPath file name) = tree.hasEntry (testPath file name) :=
              sameTests _ ⟨file, isFile, data, isRead, tag, attributes, isEntry, key, value, isKey,
                name, isText, notTested, notAdditions, rfl⟩
            rw [kept]

theorem flatMap_attributeProblems_eq
    (sameTests : ∀ test, NamesTest tree files test → other.hasEntry test = tree.hasEntry test)
    (inventory : Inventory) :
    ((entriesIn (readable tree files)).flatMap fun (file, tag, entry) =>
        attributeProblems tree inventory file tag entry) =
      (entriesIn (readable tree files)).flatMap fun (file, tag, entry) =>
        attributeProblems other inventory file tag entry :=
  List.flatMap_congr fun _ member => attributeProblems_eq sameTests member

section MoreFiles

variable (sameReads : ∀ file ∈ files, read tree file = read other file)
  (more : files.Subperm otherFiles)

include sameReads more

/-- What is found at data files that are read alike is found at more files too. -/
theorem filterMap_subperm {β : Type} {found foundOther : Path → Option β}
    (same : ∀ file, read tree file = read other file → found file = foundOther file) :
    (files.filterMap found).Subperm (otherFiles.filterMap foundOther) := by
  rw [List.filterMap_congr fun file isFile => same file (sameReads file isFile)]
  exact subperm_filterMap more foundOther

theorem readable_subperm : (readable tree files).Subperm (readable other otherFiles) :=
  filterMap_subperm sameReads more fun _ same => by rw [same]

theorem readProblems_subperm :
    (readProblems tree files).Subperm (readProblems other otherFiles) :=
  filterMap_subperm sameReads more fun _ same => by rw [same]

/-- **All problems of some files are among those of more files**, as often. -/
theorem problems_subperm
    (sameTests : ∀ test, NamesTest tree files test → other.hasEntry test = tree.hasEntry test)
    (inventory : Inventory) :
    (reportOn tree files inventory).problems.Subperm
      (reportOn other otherFiles inventory).problems := by
  have moreEntries : (entriesIn (readable tree files)).Subperm
      (entriesIn (readable other otherFiles)) :=
    subperm_flatMap (readable_subperm sameReads more) _
  -- Each of the three passes goes over more files, or over more entries.
  simp only [reportOn]
  rw [flatMap_attributeProblems_eq sameTests inventory]
  exact ((readProblems_subperm sameReads more).append (problemsOfTags_subperm moreEntries)).append
    (subperm_flatMap moreEntries _)

end MoreFiles

/-- A data file of the smaller tree is found in the larger one and read as before. -/
theorem find_of_adds (adds : tree.Adds other) (proper : tree.isProper = true)
    (areFound : find tree path = .ok files) (areOthers : find other path = .ok otherFiles) :
    (∀ file ∈ files, read tree file = read other file) ∧ files.Subperm otherFiles := by
  obtain ⟨_, rfl⟩ := FileTree.search_eq_ok_iff.mp areFound
  obtain ⟨_, rfl⟩ := FileTree.search_eq_ok_iff.mp areOthers
  refine ⟨fun file isFile => ?_, adds.selected_subperm isDataFile proper path⟩
  rw [read, read, FileTree.readTextFor, FileTree.readTextFor,
    adds.readText_eq proper (FileTree.entry_ne_of_mem_selected proper isFile)]

end Additions

/-- **A validation of a tree to which files were added reports all that it reported before**, each
message at least as often, and what was not valid stays so. In every validation each tag is
reported to be repeated once less than it heads entries. -/
theorem messages_count_le_of_adds {tree other : FileTree} {path : Path} {files : List Path}
    {inventory : Inventory} {report otherReport : Report}
    (proper : tree.isProper = true) (adds : tree.Adds other)
    (areFound : find tree path = .ok files)
    (sameTests : ∀ test, NamesTest tree files test → other.hasEntry test = tree.hasEntry test)
    (validated : validate tree path inventory = .ok report)
    (otherValidated : validate other path inventory = .ok otherReport) :
    (∀ message, report.messages.count message ≤ otherReport.messages.count message) ∧
    (report.isValid = false → otherReport.isValid = false) ∧
    ∀ (anyTree : FileTree) (anyPath : Path) (anyInventory : Inventory) (anyReport : Report),
      validate anyTree anyPath anyInventory = .ok anyReport → ∀ tag,
        (anyReport.problems.filterMap Problem.repeatedTag?).count tag =
          (headTags anyTree anyReport.files).count tag - 1 := by
  obtain ⟨_, areFiles, rfl⟩ := validate_eq_ok_iff.mp validated
  cases areFound.symm.trans areFiles
  obtain ⟨otherFiles, areOthers, rfl⟩ := validate_eq_ok_iff.mp otherValidated
  obtain ⟨sameReads, more⟩ := find_of_adds adds proper areFound areOthers
  have problems := problems_subperm sameReads more sameTests inventory
  refine ⟨(subperm_flatMap problems Problem.lines).count_le, fun notValid => ?_, ?_⟩
  · rw [Report.isValid, List.isEmpty_eq_false_iff] at notValid ⊢
    intro none
    rw [none, List.subperm_nil] at problems
    exact notValid problems
  · intro anyTree anyPath anyInventory anyReport anyValidated tag
    obtain ⟨anyFiles, _, rfl⟩ := validate_eq_ok_iff.mp anyValidated
    exact count_repeatedTags anyTree anyFiles anyInventory tag

/-- A directory with a data file for a tag that is in no source file. -/
def ghostTree : FileTree where
  root := .directory [(Text.bytes fileName, .file (some "ghost:\n  a.js:\n"))]
  workingDirectory := []

/-- The directory with one more data file for the tag, which comes in front of the other one. -/
def twoGhosts : FileTree where
  root := .directory
    [(Text.bytes "+more", .directory [(Text.bytes fileName, .file (some "ghost:\n"))]),
     (Text.bytes fileName, .file (some "ghost:\n  a.js:\n"))]
  workingDirectory := []

theorem messages_count_le_of_adds_twoGhosts :
    ghostTree.Adds twoGhosts ∧ ghostTree.isProper = true ∧
      ∃ files report, find ghostTree (.ofString "/") = .ok files ∧
        (∀ test, NamesTest ghostTree files test →
          twoGhosts.hasEntry test = ghostTree.hasEntry test) ∧
        validate twoGhosts (.ofString "/") .empty = .ok report ∧
        1 ≤ report.messages.count "Test file /a.js used in /.drift-data.yml not found!" ∧
        report.isValid = false := by
  have adds : ghostTree.Adds twoGhosts :=
    ⟨.added (by decide +kernel) (by decide +kernel) (by decide +kernel), rfl⟩
  have proper : ghostTree.isProper = true := by decide +kernel
  have tests : ∀ test ∈ testPaths ghostTree (.ofString "/"),
      twoGhosts.hasEntry test = ghostTree.hasEntry test := by decide +kernel
  obtain ⟨files, areFound⟩ : ∃ files, find ghostTree (.ofString "/") = .ok files :=
    ⟨_, FileTree.search_eq_ok_iff.mpr
      ⟨FileTree.permits_of_refuses_eq_none (fun _ => rfl) _, rfl⟩⟩
  obtain ⟨others, areOthers⟩ : ∃ files, find twoGhosts (.ofString "/") = .ok files :=
    ⟨_, FileTree.search_eq_ok_iff.mpr
      ⟨FileTree.permits_of_refuses_eq_none (fun _ => rfl) _, rfl⟩⟩
  have sameTests : ∀ test, NamesTest ghostTree files test →
      twoGhosts.hasEntry test = ghostTree.hasEntry test :=
    fun test names => tests test (names.mem_testPaths areFound)
  obtain ⟨report, validated, reported, notValid⟩ : ∃ report,
      validate ghostTree (.ofString "/") .empty = .ok report ∧
        1 ≤ report.messages.count "Test file /a.js used in /.drift-data.yml not found!" ∧
        report.isValid = false :=
    exists_ok (by decide +kernel)
  have otherValidated := validate_of_find areOthers .empty
  obtain ⟨messages, valid, _⟩ :=
    messages_count_le_of_adds proper adds areFound sameTests validated otherValidated
  exact ⟨adds, proper, files, _, areFound, sameTests, otherValidated,
    Nat.le_trans reported (messages _), valid notValid⟩

end SampleMethods.DataFile
