import SampleMethods.Proofs.Config.Discovery
import SampleMethods.Proofs.Project.Determinism
import SampleMethods.Proofs.Source.Tagging

/-!
# What files contribute to an analysis

A method of an analysis comes from a file that is collected, let through by the
settings, read and parsed (`mem_analyze_iff`), and it carries the path under which that
file is shown. Since two files may be shown alike, each method of an analysis is given
with its file besides (`origins`). When tags are attached, each tag of the method is that
of a complete region in the text of the file (`exists_region_of_mem_regionTags`).
-/

set_option autoImplicit false

namespace SampleMethods.Project

variable {tree : FileTree} {path file : Path} {overrides : Overrides}
  {settings : Option Settings} {method : Method}

/-- **A method is in an analysis when a file that contributes to it has the method.** -/
theorem mem_analyze_iff {found : List Method}
    (analyzed : analyze tree path overrides settings = .ok found) :
    method ∈ found ↔
      ∃ file methods, Contributes tree path overrides settings file methods ∧ method ∈ methods := by
  obtain ⟨permits, rfl⟩ := analyze_eq_ok_iff_contributions.mp analyzed
  rw [Method.sort, List.mem_mergeSort, List.mem_flatMap]
  constructor
  · rintro ⟨⟨file, methods⟩, isPart, member⟩
    exact ⟨file, methods, (mem_contributions permits).mp isPart, member⟩
  · rintro ⟨file, methods, contributes, member⟩
    exact ⟨(file, methods), (mem_contributions permits).mpr contributes, member⟩

/-! ## Methods with their files -/

/-- The methods that a file contributes, each with the file. -/
def withFile (part : Path × List Method) : List (Path × Method) :=
  part.2.map (part.1, ·)

/-- The methods that files contribute to an analysis, each with its file, in the order in which
the analysis has them. -/
def origins (tree : FileTree) (path : Path) (overrides : Overrides)
    (settings : Option Settings) : List (Path × Method) :=
  ((contributions tree path overrides settings).flatMap withFile).mergeSort
    fun first second => first.2.isAtMost second.2

/-- Without their files these are the methods of the analysis. -/
theorem map_origins :
    (origins tree path overrides settings).map (·.2) =
      Method.sort ((contributions tree path overrides settings).flatMap (·.2)) := by
  have unsorted : ((contributions tree path overrides settings).flatMap withFile).map (·.2) =
      (contributions tree path overrides settings).flatMap (·.2) := by
    simp [List.map_flatMap, withFile, Function.comp_def]
  rw [Method.sort, ← unsorted]
  exact List.map_mergeSort fun _ _ _ _ => rfl

theorem analyze_eq_ok_iff_origins {methods : List Method} :
    analyze tree path overrides settings = .ok methods ↔
      tree.Permits path ∧ methods = (origins tree path overrides settings).map (·.2) := by
  rw [analyze_eq_ok_iff_contributions, map_origins]

theorem mem_origins_iff (permits : tree.Permits path) :
    (file, method) ∈ origins tree path overrides settings ↔
      ∃ methods, Contributes tree path overrides settings file methods ∧ method ∈ methods := by
  rw [origins, List.mem_mergeSort, List.mem_flatMap]
  constructor
  · rintro ⟨⟨other, methods⟩, isPart, member⟩
    obtain ⟨_, isMethod, same⟩ := List.mem_map.mp member
    cases same
    exact ⟨methods, (mem_contributions permits).mp isPart, isMethod⟩
  · rintro ⟨methods, contributes, member⟩
    exact ⟨(file, methods), (mem_contributions permits).mpr contributes, List.mem_map_of_mem member⟩

/-- A method carries the path under which its file is shown. -/
theorem sourcePath_of_mem_origins (permits : tree.Permits path)
    (member : (file, method) ∈ origins tree path overrides settings) :
    method.sourcePath = file.toString := by
  obtain ⟨methods, contributes, isMethod⟩ := (mem_origins_iff permits).mp member
  exact (analyzeFile_ofOneFile contributes.analyzed).sourcePath method isMethod

/-! ## Texts and tags -/

/-- A file that can be analysed has a text, which is that of a script. -/
theorem exists_of_analyzeFile {options : Source.Options} {methods : List Method}
    (analyzed : analyzeFile tree options file = .ok methods) :
    ∃ text script, tree.readText file = .ok text ∧
      Source.parse text.toList file.toString = .ok script ∧
      methods = Source.methodsOf options text.toList file.toString script := by
  obtain ⟨text, read, analyzed⟩ := exists_of_bind analyzed
  rw [Source.analyze] at analyzed
  cases parsed : Source.parse text.toList file.toString with
  | error failure =>
      rw [parsed] at analyzed
      cases analyzed
  | ok script =>
      rw [parsed] at analyzed
      cases analyzed
      exact ⟨text, script, FileTree.readTextFor_eq_ok_iff.mp read, parsed, rfl⟩

/-- **The tags of a method are those of complete regions of its file.** -/
theorem exists_region_of_mem_regionTags {strategy : Strategy} {methods : List Method} {tag : String}
    (analyzed : analyzeFile tree ⟨strategy, true⟩ file = .ok methods) (member : method ∈ methods)
    (isTag : tag ∈ method.regionTags) :
    ∃ text, tree.readText file = .ok text ∧
      ∃ region ∈ Region.extract text.toList, region.tag = tag := by
  obtain ⟨text, script, read, _, rfl⟩ := exists_of_analyzeFile analyzed
  obtain ⟨region, isRegion, _, isTag⟩ := (Source.mem_regionTags_iff member).mp isTag
  exact ⟨text, read, region, isRegion, isTag⟩

end SampleMethods.Project
