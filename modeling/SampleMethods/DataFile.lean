import SampleMethods.Config.Discovery
import SampleMethods.FileTree.Search
import SampleMethods.Text.Blank
import SampleMethods.Yaml.Value.Printer
import SampleMethods.Yaml.Value.Reader

/-!
# Data files

A directory of samples describes its region tags in data files. Such a file is a
YAML mapping with an entry for each tag, which has attributes: whether the tag is
tested, which tags belong to it besides, and the files with its tests.
-/

set_option autoImplicit false

namespace SampleMethods

/-! ## Contents -/

/-- What a data file says about a tag. -/
inductive TagEntry where
  | attributes (entries : List (Yaml × Yaml))
  /-- Something that is no mapping. -/
  | malformed (value : Yaml)
deriving Repr

namespace TagEntry

/-- The entry that a value is. Nothing at all stands for an entry without attributes. -/
def ofValue : Yaml → TagEntry
  | .null => attributes []
  | .mapping entries => attributes entries
  | value => malformed value

/-- The key of the attribute that says whether a tag is tested. -/
def testedKey : String :=
  "tested"

/-- The key of the attribute with further tags. -/
def additionsKey : String :=
  "additions"

/-- Whether the entry says that the tag is not tested. -/
def isUntested : TagEntry → Bool
  | attributes entries =>
    match Yaml.entry? entries testedKey with
    | some (.bool false) => true
    | _ => false
  | malformed _ => false

end TagEntry

/-- A data file that could be read: where it is, and what it says about which tags. -/
structure DataFile where
  path : Path
  entries : List (String × TagEntry)
deriving Repr

namespace DataFile

/-- How messages show a value. -/
def describe : Yaml → String
  | .null => "null"
  | .bool value => if value then "true" else "false"
  | .number value => value.renderPlain
  | .string text => text
  | value => String.ofList (Text.trimEnd value.render.toList)

/-! ## Reading -/

/-- The name of every data file. -/
def fileName : String :=
  ".drift-data.yml"

/-- Whether a path has the name of a data file. -/
def isDataFile (path : Path) : Bool :=
  path.fileName? == some (Text.bytes fileName)

/-- The data files at and below a path, in the order of their paths. -/
def find (tree : FileTree) (path : Path) : Except Failure (List Path) :=
  tree.search isDataFile path

/-- An entry of a data file for a tag, which has to be a text. -/
def entryOf (entry : Yaml × Yaml) : Except Failure (String × TagEntry) :=
  match entry.1.text? with
  | some tag => .ok (tag, .ofValue entry.2)
  | none => .error (.because ("region tag " ++ describe entry.1 ++ " is not a string"))

/-- The entries of the value that the data file at a path writes. -/
def entriesOf (path : Path) : Yaml → Except Failure (List (String × TagEntry))
  | .null => .ok []
  | .mapping entries => entries.mapM entryOf
  | _ =>
    .error (.because
      ("top level of " ++ path.toString ++ " is not a mapping of region tags"))

/-- The entries that a text writes, which is in the data file at a path. -/
def ofText (path : Path) (text : String) : Except Failure (List (String × TagEntry)) := do
  if Text.isAllBlank text.toList then
    return []
  let value ← Failure.during ("failed to parse " ++ path.toString)
    ((Yaml.ofText text).mapError fun error => .of (.yaml error))
  entriesOf path value

/-- The data file at a path. -/
def read (tree : FileTree) (path : Path) : Except Failure DataFile := do
  let text ← tree.readTextFor ("failed to read " ++ path.toString) path
  return ⟨path, ← ofText path text⟩

end DataFile

end SampleMethods
