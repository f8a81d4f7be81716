import SampleMethods.Project

/-!
# Inventories of tags

The tags that the source files of a project know: those of all regions, and
those of regions around a method.
-/

set_option autoImplicit false

namespace SampleMethods

/-- The tags of a project, each kind in order and without repeats. -/
structure Inventory where
  /-- The tags of regions in source files. -/
  regionTags : List String
  /-- The tags that methods have. -/
  methodTags : List String
deriving DecidableEq, Repr

namespace Inventory

/-- The inventory of a project without tags. -/
def empty : Inventory :=
  ⟨[], []⟩

/-- The inventory of the tags. -/
def ofTags (regionTags methodTags : List String) : Inventory :=
  ⟨Region.canonicalTags regionTags, Region.canonicalTags methodTags⟩

/-- The tags of the regions of a file. A file that cannot be read has none. -/
def tagsOfFile (tree : FileTree) (file : Path) : List String :=
  match tree.readText file with
  | .ok text => (Region.extract text.toList).map (·.tag)
  | .error _ => []

/-- What is to be said about looking for regions in a file. -/
def fileRemarks (tree : FileTree) (file : Path) : List Remark :=
  match tree.readText file with
  | .ok text => Region.remarks text.toList
  | .error error => [.warning .dataFiles ("skipping file " ++ file.toString ++ ": " ++ error.message)]

/-- An analysis that attaches tags, whatever is asked about them. -/
def withTags (overrides : Project.Overrides) : Project.Overrides :=
  { overrides with regionTags := some true }

/-- The inventory of the source files at and below a path. Regions are looked for in every
source file, methods only in those that the settings let through. -/
def collect (tree : FileTree) (path : Path) (overrides : Project.Overrides)
    (settings : Option Settings) : Except Failure Inventory := do
  let files ← Project.sourceFiles tree path
  let methods ← Project.analyze tree path (withTags overrides) settings
  return ofTags (files.flatMap (tagsOfFile tree)) (methods.flatMap (·.regionTags))

/-- What is to be said about taking an inventory. -/
def remarks (tree : FileTree) (path : Path) (overrides : Project.Overrides)
    (settings : Option Settings) : List Remark :=
  match Project.sourceFiles tree path, collect tree path overrides settings with
  | .ok files, .ok inventory =>
    files.flatMap (fileRemarks tree) ++ Project.remarks tree path (withTags overrides) settings ++
      [.info .dataFiles (toString inventory.regionTags.length ++ " region tag(s) in sources, " ++
        toString inventory.methodTags.length ++ " attached to methods")]
  | _, _ => []

end Inventory

end SampleMethods
