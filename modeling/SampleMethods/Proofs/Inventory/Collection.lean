import SampleMethods.Inventory
import SampleMethods.Proofs.Project.Contribution

/-!
# The tags of an inventory

An inventory comes from two passes over a project: regions are looked for in the
text of every source file, and methods in the files that the settings let through.
Both read the same files and the same markers, so a method has no tag that the
first pass does not find (`collect_tags`). What the first pass finds is a matter of
the files alone, and neither pass depends on whether tags are asked for, because
the second one attaches them in any case.
-/

set_option autoImplicit false

namespace SampleMethods.Inventory

variable {tree : FileTree} {path file : Path} {overrides : Project.Overrides}
  {settings : Option Settings} {tag : String}

/-- The text has a complete region with the tag: a line that starts one is paired with a line that
finishes it. -/
def HasRegion (tag : String) (text : List Char) : Prop :=
  ∃ first last, Region.IsPair (Region.marks tag text) first last

theorem hasRegion_iff {text : List Char} :
    HasRegion tag text ↔ ∃ region ∈ Region.extract text, region.tag = tag := by
  constructor
  · rintro ⟨first, last, isPair⟩
    exact ⟨⟨tag, .ofNat first, .ofNat last⟩,
      Region.mem_extract_iff.mpr ⟨first, last, isPair, rfl, rfl⟩, rfl⟩
  · rintro ⟨region, isRegion, rfl⟩
    obtain ⟨first, last, isPair, _⟩ := Region.mem_extract_iff.mp isRegion
    exact ⟨first, last, isPair⟩

theorem mem_tagsOfFile :
    tag ∈ tagsOfFile tree file ↔
      ∃ text, tree.readText file = .ok text ∧ HasRegion tag text.toList := by
  rw [tagsOfFile]
  cases tree.readText file with
  | error error => simp
  | ok text => simp [hasRegion_iff]

/-- **An inventory is there just if the source files are found.** -/
theorem collect_eq_ok_iff {inventory : Inventory} :
    collect tree path overrides settings = .ok inventory ↔
      ∃ files methods, Project.sourceFiles tree path = .ok files ∧
        Project.analyze tree path (withTags overrides) settings = .ok methods ∧
        inventory = ofTags (files.flatMap (tagsOfFile tree)) (methods.flatMap (·.regionTags)) := by
  simp only [collect, bind_eq_ok_iff, pure_eq_ok_iff, exists_and_left]

theorem exists_collect (overrides : Project.Overrides) (settings : Option Settings)
    {files : List Path} (areFiles : Project.sourceFiles tree path = .ok files) :
    ∃ inventory, collect tree path overrides settings = .ok inventory ∧
      inventory.regionTags = Region.canonicalTags (files.flatMap (tagsOfFile tree)) := by
  obtain ⟨permits, _⟩ := Project.sourceFiles_eq_ok_iff.mp areFiles
  exact ⟨_, collect_eq_ok_iff.mpr
    ⟨files, _, areFiles, Project.analyze_eq_ok_iff.mpr ⟨permits, rfl⟩, rfl⟩, rfl⟩

section Collected

variable {files : List Path} {inventory : Inventory}
  (areFiles : Project.sourceFiles tree path = .ok files)
  (collected : collect tree path overrides settings = .ok inventory)

include areFiles collected

/-- The tags of regions are those of the collected files that can be read. -/
theorem mem_regionTags_collect :
    tag ∈ inventory.regionTags ↔
      ∃ file ∈ files, ∃ text, tree.readText file = .ok text ∧ HasRegion tag text.toList := by
  obtain ⟨others, methods, areOthers, _, rfl⟩ := collect_eq_ok_iff.mp collected
  cases areFiles.symm.trans areOthers
  rw [ofTags, Region.mem_canonicalTags, List.mem_flatMap]
  simp only [mem_tagsOfFile]

/-- A tag of a method is that of a region in a file that was collected. -/
theorem methodTags_subset_regionTags : inventory.methodTags ⊆ inventory.regionTags := by
  intro tag isTag
  obtain ⟨_, methods, _, analyzed, rfl⟩ := collect_eq_ok_iff.mp collected
  rw [ofTags, Region.mem_canonicalTags, List.mem_flatMap] at isTag
  obtain ⟨method, isMethod, isTag⟩ := isTag
  obtain ⟨file, found, contributes, member⟩ := (Project.mem_analyze_iff analyzed).mp isMethod
  obtain ⟨others, areOthers, isFile⟩ := contributes.collected
  cases areFiles.symm.trans areOthers
  -- The tags are attached in any case: that is what `withTags` is for.
  obtain ⟨text, read, hasRegion⟩ :=
    Project.exists_region_of_mem_regionTags contributes.analyzed member isTag
  exact (mem_regionTags_collect areFiles collected).mpr
    ⟨file, isFile, text, read, hasRegion_iff.mpr hasRegion⟩

end Collected

/-- **What an inventory holds.** It is there if the source files are found. Its tags stand in strict
order. Those of methods are among those of regions, and the latter are the tags of the complete
regions in the collected files that can be read, whether these can be parsed and whether the
settings let them through or not. So they depend neither on what is asked for nor on the settings,
and whether tags are asked for, or the settings want them, makes no difference to either kind. -/
theorem collect_tags (tree : FileTree) (path : Path) (overrides : Project.Overrides)
    (settings : Option Settings) :
    ((∃ inventory, collect tree path overrides settings = .ok inventory) ↔
      ∃ files, Project.sourceFiles tree path = .ok files) ∧
    (∀ files inventory, Project.sourceFiles tree path = .ok files →
      collect tree path overrides settings = .ok inventory →
        inventory.methodTags ⊆ inventory.regionTags ∧
        inventory.methodTags.Pairwise (· < ·) ∧
        inventory.regionTags.Pairwise (· < ·) ∧
        (∀ tag, tag ∈ inventory.regionTags ↔
          ∃ file ∈ files, ∃ text, tree.readText file = .ok text ∧ HasRegion tag text.toList) ∧
        ∀ otherOverrides otherSettings, ∃ other,
          collect tree path otherOverrides otherSettings = .ok other ∧
            other.regionTags = inventory.regionTags) ∧
    ∀ asked wanted,
      collect tree path { overrides with regionTags := asked }
          (settings.map fun given => { given with regionTags := wanted }) =
        collect tree path overrides settings := by
  refine ⟨⟨?_, ?_⟩, fun files inventory areFiles collected => ?_, fun asked wanted => ?_⟩
  · rintro ⟨inventory, collected⟩
    obtain ⟨files, _, areFiles, _⟩ := collect_eq_ok_iff.mp collected
    exact ⟨files, areFiles⟩
  · rintro ⟨files, areFiles⟩
    obtain ⟨inventory, collected, _⟩ := exists_collect overrides settings areFiles
    exact ⟨inventory, collected⟩
  · have subset := methodTags_subset_regionTags areFiles collected
    have each : ∀ tag, tag ∈ inventory.regionTags ↔ ∃ file ∈ files, ∃ text,
        tree.readText file = .ok text ∧ HasRegion tag text.toList :=
      fun _ => mem_regionTags_collect areFiles collected
    obtain ⟨_, _, areOthers, _, rfl⟩ := collect_eq_ok_iff.mp collected
    cases areFiles.symm.trans areOthers
    exact ⟨subset, Region.canonicalTags_sorted _, Region.canonicalTags_sorted _, each,
      fun otherOverrides otherSettings => exists_collect otherOverrides otherSettings areFiles⟩
  · cases settings with
    | none => rfl
    | some given => rfl

/-- A tree with a tagged method. -/
def taggedTree : FileTree where
  root := .directory [(Text.bytes "a.js",
    .file (some "// [START a]\nfunction f() {}\n// [END a]\nf();\n"))]
  workingDirectory := []

theorem collect_tags_tagged :
    ∃ inventory, collect taggedTree (.ofString "/") .none none = .ok inventory ∧
      inventory.methodTags ⊆ inventory.regionTags ∧ inventory.methodTags = ["a"] := by
  obtain ⟨inventory, collected, tags⟩ : ∃ inventory,
      collect taggedTree (.ofString "/") .none none = .ok inventory ∧
        inventory.methodTags = ["a"] :=
    exists_ok (by decide +kernel)
  obtain ⟨succeeds, each, _⟩ := collect_tags taggedTree (.ofString "/") .none none
  obtain ⟨files, areFiles⟩ := succeeds.mp ⟨inventory, collected⟩
  exact ⟨inventory, collected, (each files inventory areFiles collected).1, tags⟩

end SampleMethods.Inventory
