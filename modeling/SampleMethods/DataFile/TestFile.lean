import SampleMethods.DataFile.Validation

/-!
# Test files of data files

The files with tests that the data files of a directory name.
-/

set_option autoImplicit false

namespace SampleMethods.DataFile

/-- The files with tests that an entry names. -/
def testPathsOf (path : Path) : TagEntry → List Path
  | .malformed _ => []
  | .attributes attributes =>
    (attributes.filterMap fun (key, _) => key.text?).map (testPath path)

/-- The files with tests that the data files at and below a path name, if those can be found. -/
def testPaths (tree : FileTree) (path : Path) : List Path :=
  let files := (find tree path).toOption.getD []
  (entriesIn (readable tree files)).flatMap fun (file, _, entry) => testPathsOf file entry

end SampleMethods.DataFile
