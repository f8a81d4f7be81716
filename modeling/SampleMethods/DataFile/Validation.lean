import SampleMethods.DataFile
import SampleMethods.Inventory

/-!
# Validation of data files

The data files of a project are held against the tags that its sources know.
Every rule that is broken gives a problem, whatever other problems there are,
and the files are valid when there is none. Each tag may have an entry in one
data file only.
-/

set_option autoImplicit false

namespace SampleMethods.DataFile

/-! ## Problems -/

/-- A rule that a data file breaks. -/
inductive Problem where
  /-- The file cannot be read. -/
  | unreadable (path : Path) (failure : Failure)
  /-- No source file has a region with the tag. -/
  | unknownTag (path : Path) (tag : String)
  /-- No method has the tag, and its entry does not say that it is not tested. -/
  | unattachedTag (path : Path) (tag : String)
  /-- A method has the tag, and its entry says that it is not tested. -/
  | attachedUntested (path : Path) (tag : String)
  /-- The tag has more than one entry. -/
  | repeatedTag (tag : String)
  /-- The entry of the tag is no mapping. -/
  | malformedEntry (path : Path) (tag : String) (value : Yaml)
  /-- The entry says whether the tag is tested, in another way than by `false`. -/
  | wrongTested (path : Path) (tag : String) (value : Yaml)
  /-- The further tags are no list. -/
  | additionsNoList (path : Path) (tag : String)
  /-- A further tag is in no source file. -/
  | unknownAddition (path : Path) (tag : String) (value : Yaml)
  /-- A key is no text. -/
  | keyNoText (path : Path) (tag : String) (key : Yaml)
  /-- There is no such file with tests. -/
  | missingTest (path : Path) (test : Path)

/-- The lines that state a problem. -/
def Problem.lines : Problem → List String
  | unreadable path failure =>
    ["Yaml file " ++ path.toString ++ " could not be parsed: " ++ failure.message]
  | unknownTag path tag =>
    ["Yaml file " ++ path.toString ++ " contains region tag not used in source files: " ++ tag]
  | unattachedTag path tag =>
    ["Yaml file " ++ path.toString ++ " contains unparsed region tag: " ++ tag,
      "  Remove it, or label it with \"tested: false\"."]
  | attachedUntested path tag =>
    ["Parsed tag " ++ tag ++ " in file " ++ path.toString ++ " marked untested!"]
  | repeatedTag tag =>
    ["Region tag " ++ tag ++ " is used multiple times in " ++ fileName ++ " files!"]
  | malformedEntry path tag value =>
    ["Region tag " ++ tag ++ " in file " ++ path.toString ++ " is formatted incorrectly: " ++
      describe value]
  | wrongTested path tag value =>
    ["Invalid " ++ TagEntry.testedKey ++ " value in file " ++ path.toString ++ " for tag " ++ tag ++
      ": " ++ describe value ++ ", expected false (or omission)"]
  | additionsNoList path tag =>
    ["Additions key for " ++ tag ++ " in " ++ path.toString ++ " is not a list!"]
  | unknownAddition path tag value =>
    ["Yaml file " ++ path.toString ++ " adds region tag not used in source files to " ++ tag ++
      ": " ++ describe value]
  | keyNoText path tag key =>
    ["Region tag " ++ tag ++ " in file " ++ path.toString ++ " has a non-string key: " ++
      describe key]
  | missingTest path test =>
    ["Test file " ++ test.toString ++ " used in " ++ path.toString ++ " not found!"]

/-! ## Tags -/

/-- What is wrong with the tag of an entry, as the sources know it. -/
def tagProblems (inventory : Inventory) (path : Path) (tag : String) (entry : TagEntry) :
    List Problem :=
  let untested := entry.isUntested
  let attached := inventory.methodTags.contains tag
  if !inventory.regionTags.contains tag then [.unknownTag path tag]
  else if !untested && !attached then [.unattachedTag path tag]
  else if untested && attached then [.attachedUntested path tag]
  else []

/-- What is wrong with the tags of entries, in front of which the tags `seen` have one. -/
def problemsOfTags (inventory : Inventory) :
    List String → List (Path × String × TagEntry) → List Problem
  | _, [] => []
  | seen, (path, tag, entry) :: entries =>
    tagProblems inventory path tag entry ++
      (if seen.contains tag then [.repeatedTag tag] else []) ++
      problemsOfTags inventory (tag :: seen) entries

/-! ## Attributes -/

/-- What is wrong with the attribute that says whether a tag is tested. -/
def testedProblems (path : Path) (tag : String) (attributes : List (Yaml × Yaml)) :
    List Problem :=
  match Yaml.entry? attributes TagEntry.testedKey with
  | none | some (.bool false) => []
  | some value => [.wrongTested path tag value]

/-- Whether a value is a tag of a source file. -/
def isKnownTag (inventory : Inventory) (value : Yaml) : Bool :=
  value.text?.any inventory.regionTags.contains

/-- What is wrong with the attribute that has further tags. -/
def additionsProblems (inventory : Inventory) (path : Path) (tag : String)
    (attributes : List (Yaml × Yaml)) : List Problem :=
  match Yaml.entry? attributes TagEntry.additionsKey with
  | none => []
  | some (.sequence items) =>
    (items.filter fun item => !isKnownTag inventory item).map (.unknownAddition path tag)
  | some _ => [.additionsNoList path tag]

/-- The file with tests that an attribute names, seen from the directory of the data file. -/
def testPath (path : Path) (name : String) : Path :=
  (path.parent?.getD ⟨[]⟩).join (.ofString name)

/-- What is wrong with the key of an attribute. -/
def keyProblems (tree : FileTree) (path : Path) (tag : String) (key : Yaml) : List Problem :=
  match key.text? with
  | none => [.keyNoText path tag key]
  | some name =>
    if name == TagEntry.testedKey || name == TagEntry.additionsKey then []
    else if tree.hasEntry (testPath path name) then []
    else [.missingTest path (testPath path name)]

/-- What is wrong with the attributes of an entry. -/
def attributeProblems (tree : FileTree) (inventory : Inventory) (path : Path) (tag : String) :
    TagEntry → List Problem
  | .malformed value => [.malformedEntry path tag value]
  | .attributes attributes =>
    testedProblems path tag attributes ++ additionsProblems inventory path tag attributes ++
      attributes.flatMap fun (key, _) => keyProblems tree path tag key

/-! ## Reports -/

/-- The result of a validation. -/
structure Report where
  files : List Path
  problems : List Problem

namespace Report

/-- Whether the data files are valid. -/
def isValid (report : Report) : Bool :=
  report.problems.isEmpty

/-- The lines that state the problems. -/
def messages (report : Report) : List String :=
  report.problems.flatMap Problem.lines

/-- The last line of a report. -/
def verdict (report : Report) : String :=
  if report.isValid then "All files are valid." else "Invalid file(s) found!"

/-- The report as text. -/
def render (report : Report) : String :=
  String.join ((report.messages ++ [report.verdict]).map (· ++ "\n"))

/-- What is to be said about a validation. -/
def remarks (report : Report) : List Remark :=
  [.debug .dataFiles ("validated " ++ toString report.files.length ++ " data file(s): " ++
    if report.isValid then "valid" else "invalid")]

end Report

/-- The data files that can be read. -/
def readable (tree : FileTree) (paths : List Path) : List DataFile :=
  paths.filterMap fun path => (read tree path).toOption

/-- The problems of the data files that cannot be read. -/
def readProblems (tree : FileTree) (paths : List Path) : List Problem :=
  paths.filterMap fun path =>
    match read tree path with
    | .ok _ => none
    | .error failure => some (.unreadable path failure)

/-- The entries of data files, with the files they are in. -/
def entriesIn (files : List DataFile) : List (Path × String × TagEntry) :=
  files.flatMap fun file => file.entries.map fun (tag, entry) => (file.path, tag, entry)

/-- Holds data files against the tags of the sources. -/
def reportOn (tree : FileTree) (files : List Path) (inventory : Inventory) : Report :=
  let entries := entriesIn (readable tree files)
  { files := files,
    problems :=
      readProblems tree files ++ problemsOfTags inventory [] entries ++
        entries.flatMap fun (path, tag, entry) =>
          attributeProblems tree inventory path tag entry }

/-- Holds the data files at and below a path against the tags of the sources. -/
def validate (tree : FileTree) (path : Path) (inventory : Inventory) : Except Failure Report := do
  return reportOn tree (← find tree path) inventory

end SampleMethods.DataFile
