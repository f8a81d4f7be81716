import SampleMethods.Proofs.Config.RelativePath
import SampleMethods.Proofs.FileTree.LinkFree
import SampleMethods.Proofs.FileTree.Spelling
import SampleMethods.Proofs.Path.Shown
import SampleMethods.Proofs.Project.SourceFiles
import SampleMethods.Proofs.Project.Subtree
import SampleMethods.Proofs.Source.Naming

/-!
# Two spellings of an analysed directory

Two paths may lead to one directory. The search then finds the same files below both of
them, and what the patterns see of a file settles whether it is analysed. If the two
paths are spelled alike behind the directory of the configuration, the patterns see
the same, and the two analyses give the same methods in the same order
(`analyze_of_seesAlike`). If they are not, one analysis may leave out files that the
other one does not (`analyze_otherSpelling`), because paths are compared as they are
written.
-/

set_option autoImplicit false

namespace SampleMethods

theorem Script.Dialect.ofPath?_congr {first second : Path}
    (sameName : first.fileName? = second.fileName?) : ofPath? first = ofPath? second := by
  rw [ofPath?, ofPath?, Path.extension?, Path.extension?, sameName]

namespace Project

open FileTree (LeadAlike Place StandsAt)
open Text (Bytes)

variable {tree : FileTree} {path first second file : Path} {place : Place}
  {entries : List (Bytes × FileTree.Entry)} {overrides : Overrides}
  {settings : Option Settings} {methods : List Method} {names others : List Bytes}

/-! ## The files below both paths -/

/-- Source files with the same names behind two paths that lead alike have the same methods. -/
theorem analyzeFile_of_leadAlike {options : Source.Options}
    (alike : LeadAlike tree (first.below names) (second.below names)) (nonempty : names ≠ [])
    (areNames : ∀ name ∈ names, FileTree.isName name = true)
    (source : isSource (first.below names) = true)
    (analyzed : analyzeFile tree options (first.below names) = .ok methods) :
    analyzeFile tree options (second.below names) =
      .ok (methods.map (Method.inFile (second.below names).toString)) := by
  have sameDialect : Source.dialectOf (first.below names).toString =
      Source.dialectOf (second.below names).toString := by
    obtain ⟨name, isName, text, rfl, _⟩ := (isSource_iff _).mp source
    rw [Path.fileName?_below first nonempty areNames] at isName
    rw [Source.dialectOf, Source.dialectOf, Script.Dialect.ofPath?_congr
      (Path.fileName?_shown_below first second nonempty areNames ⟨text, isName⟩)]
  obtain ⟨text, read, analyzed⟩ := exists_of_bind analyzed
  rw [FileTree.readTextFor_eq_ok_iff, alike.readText] at read
  rw [analyzeFile, FileTree.readTextFor_eq_ok_iff.mpr read]
  exact Source.analyze_inFile sameDialect analyzed

section TwoPaths

variable (proper : tree.isProper = true)
  (firstLeads : tree.locate true first = .ok (.found place (.directory entries)))
  (secondLeads : tree.locate true second = .ok (.found place (.directory entries)))
  (alike : ∀ given, settings = some given → given.SeesAlike first second)
  (permits : tree.Permits second)

include proper firstLeads secondLeads alike permits

/-- **A file that contributes to one analysis contributes to the other one**, under the path that
has the same names behind the other directory. -/
theorem exists_contributes (contributes : Contributes tree first overrides settings file methods) :
    ∃ names, names ≠ [] ∧ (∀ name ∈ names, FileTree.isName name = true) ∧
      file = first.below names ∧ LeadAlike tree file (second.below names) ∧
      Contributes tree second overrides settings (second.below names)
        (methods.map (Method.inFile (second.below names).toString)) := by
  have firstEntry : tree.entry first = .ok (.directory entries) := by
    rw [FileTree.entry, firstLeads]
  have secondEntry : tree.entry second = .ok (.directory entries) := by
    rw [FileTree.entry, secondLeads]
  have firstRoot : rootOf tree first = first := by
    rw [rootOf, FileTree.isFile, firstEntry]
    rfl
  have secondRoot : rootOf tree second = second := by
    rw [rootOf, FileTree.isFile, secondEntry]
    rfl
  obtain ⟨files, areFiles, collected⟩ := contributes.collected
  obtain ⟨_, rfl⟩ := sourceFiles_eq_ok_iff.mp areFiles
  obtain ⟨source, part, text, isPart, reaches⟩ := FileTree.mem_selected_iff.mp collected
  cases firstEntry.symm.trans isPart
  obtain ⟨names, areNames, notNil, rfl, reachesOther, foundAlike⟩ :=
    reaches.exists_below (FileTree.isProper_of_entry proper firstEntry)
      (.of_found firstLeads secondLeads) (.found place firstLeads) (.found place secondLeads)
  have nonempty : names ≠ [] := by
    intro isNil
    cases notNil isNil
  have sameName : (first.below names).fileName? = (second.below names).fileName? := by
    rw [Path.fileName?_below first nonempty areNames, Path.fileName?_below second nonempty areNames]
  have analyzed :=
    analyzeFile_of_leadAlike foundAlike nonempty areNames source contributes.analyzed
  refine ⟨names, nonempty, areNames, rfl, foundAlike,
    ⟨_, sourceFiles_eq_ok_iff.mpr ⟨permits, rfl⟩, ?_⟩, ?_, analyzed⟩
  · rw [isSource, Script.Dialect.ofPath?_congr sameName] at source
    exact FileTree.mem_selected_iff.mpr ⟨source, _, text, secondEntry, reachesOther⟩
  · intro given isGiven
    have passes := contributes.passes given isGiven
    rw [firstRoot] at passes
    have sameView := (alike given isGiven).relativePath_below
      (FileTree.text_of_locate firstLeads).1 (FileTree.text_of_locate secondLeads).1
      nonempty areNames
    rw [secondRoot, ← sameView]
    exact passes

end TwoPaths

/-! ## The methods below both paths -/

/-- The path with what is behind the first directory behind the second one. -/
def relocated (first second file : Path) : Path :=
  ⟨second.stem ++ file.text.drop first.stem.length⟩

theorem relocated_below (first second : Path) (nonempty : names ≠ [])
    (areNames : ∀ name ∈ names, FileTree.isName name = true) :
    relocated first second (first.below names) = second.below names := by
  have sameText : (relocated first second (first.below names)).text =
      (second.below names).text := by
    rw [relocated, Path.text_below first nonempty areNames,
      Path.text_below second nonempty areNames, List.drop_left]
  exact congrArg Path.mk sameText

/-- What a file contributes, with the file behind the second directory instead of the first one. -/
def movedPart (first second : Path) (part : Path × List Method) : Path × List Method :=
  (relocated first second part.1,
    part.2.map (Method.inFile (relocated first second part.1).toString))

/-- A method with its file, which is behind the second directory instead of the first one. -/
def moved (first second : Path) (origin : Path × Method) : Path × Method :=
  (relocated first second origin.1,
    origin.2.inFile (relocated first second origin.1).toString)

/-- Methods of files behind the first directory are in the same order behind the second one. -/
theorem isAtMost_inFile {method other : Method} (nonempty : names ≠ [])
    (areNames : ∀ name ∈ names, FileTree.isName name = true) (othersNonempty : others ≠ [])
    (areOthers : ∀ name ∈ others, FileTree.isName name = true)
    (isPath : method.sourcePath = (first.below names).toString)
    (isOther : other.sourcePath = (first.below others).toString) :
    method.isAtMost other = (method.inFile (second.below names).toString).isAtMost
      (other.inFile (second.below others).toString) := by
  have sameInFile : method.isAtMostInFile other =
      (method.inFile (second.below names).toString).isAtMostInFile
        (other.inFile (second.below others).toString) := rfl
  have isSecondPath : (method.inFile (second.below names).toString).sourcePath =
      (second.below names).toString := rfl
  have isSecondOther : (other.inFile (second.below others).toString).sourcePath =
      (second.below others).toString := rfl
  rw [Method.isAtMost, Method.isAtMost, ← sameInFile, isPath, isOther, isSecondPath, isSecondOther]
  simp only [Path.toString_below_eq_iff first second nonempty areNames othersNonempty areOthers,
    Path.toString_below_lt_iff first second nonempty areNames othersNonempty areOthers]

section TwoAnalyses

variable (proper : tree.isProper = true)
  (firstLeads : tree.locate true first = .ok (.found place (.directory entries)))
  (secondLeads : tree.locate true second = .ok (.found place (.directory entries)))
  (alike : ∀ given, settings = some given → given.SeesAlike first second)
  (permits : tree.Permits first) (permitsSecond : tree.Permits second)

include proper firstLeads secondLeads alike permits permitsSecond

/-- **The same files contribute under either path**, in the same order. -/
theorem contributions_eq_map_moved :
    contributions tree second overrides settings =
      (contributions tree first overrides settings).map (movedPart first second) := by
  have alikeBack : ∀ given, settings = some given → given.SeesAlike second first :=
    fun given isGiven directory isDirectory => (alike given isGiven directory isDirectory).symm
  refine contributions_eq (contributions_precedes proper second _ _) ?_ fun ⟨file, methods⟩ => ?_
  · rw [List.pairwise_map]
    refine (contributions_precedes proper first _ _).imp_of_mem fun {part other} isPart isOther
      precedes => ?_
    obtain ⟨names, nonempty, areNames, isFile, _⟩ := exists_contributes proper firstLeads
      secondLeads alike permitsSecond ((mem_contributions permits).mp isPart)
    obtain ⟨others, othersNonempty, areOthers, isOtherFile, _⟩ := exists_contributes proper
      firstLeads secondLeads alike permitsSecond ((mem_contributions permits).mp isOther)
    rw [movedPart, movedPart, isFile, isOtherFile, relocated_below first second nonempty areNames,
      relocated_below first second othersNonempty areOthers]
    rw [isFile, isOtherFile] at precedes
    exact (Path.precedes_below_iff first second areNames areOthers).mp precedes
  · rw [mem_contributions permitsSecond, List.mem_map]
    constructor
    · intro contributes
      obtain ⟨names, nonempty, areNames, rfl, _, other⟩ :=
        exists_contributes proper secondLeads firstLeads alikeBack permits contributes
      refine ⟨_, (mem_contributions permits).mpr other, ?_⟩
      have back : ∀ method ∈ methods, (Method.inFile (second.below names).toString ∘
          Method.inFile (first.below names).toString) method = method := by
        intro method member
        rw [← (analyzeFile_ofOneFile contributes.analyzed).sourcePath method member]
        rfl
      rw [movedPart, relocated_below first second nonempty areNames, List.map_map,
        List.map_congr_left back, List.map_id']
    · rintro ⟨⟨other, found⟩, isPart, same⟩
      obtain ⟨names, nonempty, areNames, isFile, _, contributes⟩ := exists_contributes proper
        firstLeads secondLeads alike permitsSecond ((mem_contributions permits).mp isPart)
      subst isFile
      rw [movedPart, relocated_below first second nonempty areNames] at same
      cases same
      exact contributes

omit permitsSecond in
/-- The file of a method is behind the first directory, and what is behind the other one leads to
it as well. -/
theorem exists_below_of_mem_origins {method : Method} (permitsSecond : tree.Permits second)
    (isOrigin : (file, method) ∈ origins tree first overrides settings) :
    ∃ names, names ≠ [] ∧ (∀ name ∈ names, FileTree.isName name = true) ∧
      file = first.below names ∧ method.sourcePath = (first.below names).toString ∧
      LeadAlike tree file (second.below names) := by
  have isPath := sourcePath_of_mem_origins permits isOrigin
  obtain ⟨methods, contributes, _⟩ := (mem_origins_iff permits).mp isOrigin
  obtain ⟨names, nonempty, areNames, rfl, foundAlike, _⟩ :=
    exists_contributes proper firstLeads secondLeads alike permitsSecond contributes
  exact ⟨names, nonempty, areNames, rfl, isPath, foundAlike⟩

/-- **The same methods are in either analysis**, in the same order. -/
theorem origins_eq_map_moved :
    origins tree second overrides settings =
      (origins tree first overrides settings).map (moved first second) := by
  have parts : ((contributions tree first overrides settings).map (movedPart first second)).flatMap
      withFile =
        ((contributions tree first overrides settings).flatMap withFile).map
          (moved first second) := by
    rw [List.flatMap_map, List.map_flatMap]
    refine List.flatMap_congr fun part _ => ?_
    rw [withFile, withFile, movedPart, List.map_map, List.map_map]
    rfl
  rw [origins, contributions_eq_map_moved proper firstLeads secondLeads alike permits permitsSecond,
    parts, origins]
  refine (List.map_mergeSort ?_).symm
  rintro ⟨file, method⟩ isOrigin ⟨other, another⟩ isOther
  obtain ⟨names, nonempty, areNames, rfl, isPath, _⟩ := exists_below_of_mem_origins proper
    firstLeads secondLeads alike permits permitsSecond (List.mem_mergeSort.mpr isOrigin)
  obtain ⟨others, othersNonempty, areOthers, rfl, isOtherPath, _⟩ := exists_below_of_mem_origins
    proper firstLeads secondLeads alike permits permitsSecond (List.mem_mergeSort.mpr isOther)
  rw [moved, moved, relocated_below first second nonempty areNames,
    relocated_below first second othersNonempty areOthers]
  exact isAtMost_inFile nonempty areNames othersNonempty areOthers isPath isOtherPath

end TwoAnalyses

/-! ## Methods in their places -/

/-- The place of the entry that a path leads to. -/
def placeOf? (tree : FileTree) (path : Path) : Option Place :=
  match tree.locate true path with
  | .ok (.found place _) => some place
  | _ => none

/-- A method with the place of its file for the path of its file. -/
def located (tree : FileTree) (origin : Path × Method) : Option Place × Method :=
  (placeOf? tree origin.1, origin.2.inFile "")

/-- **Two spellings of an analysed directory give the same methods of the same files**, in the same
order, if they are spelled alike behind the directory of the configuration and the directory can be
searched under both. Each analysis has the methods of the files that contribute to it. -/
theorem analyze_of_seesAlike (proper : tree.isProper = true)
    (firstLeads : tree.locate true first = .ok (.found place (.directory entries)))
    (secondLeads : tree.locate true second = .ok (.found place (.directory entries)))
    (alike : ∀ given, settings = some given → given.SeesAlike first second)
    {overrides : Overrides} {methods others : List Method}
    (analyzed : analyze tree first overrides settings = .ok methods)
    (analyzedOther : analyze tree second overrides settings = .ok others) :
    ∃ found foundOther : List (Path × Method),
      methods = found.map (·.2) ∧ others = foundOther.map (·.2) ∧
      (∀ file method, (file, method) ∈ found ↔ ∃ contributed,
        Contributes tree first overrides settings file contributed ∧ method ∈ contributed) ∧
      (∀ file method, (file, method) ∈ foundOther ↔ ∃ contributed,
        Contributes tree second overrides settings file contributed ∧ method ∈ contributed) ∧
      found.map (located tree) = foundOther.map (located tree) := by
  obtain ⟨permits, rfl⟩ := analyze_eq_ok_iff_origins.mp analyzed
  obtain ⟨permitsSecond, rfl⟩ := analyze_eq_ok_iff_origins.mp analyzedOther
  refine ⟨_, _, rfl, rfl, fun _ _ => mem_origins_iff permits,
    fun _ _ => mem_origins_iff permitsSecond, ?_⟩
  rw [origins_eq_map_moved proper firstLeads secondLeads alike permits permitsSecond, List.map_map]
  refine List.map_congr_left fun ⟨file, method⟩ isOrigin => ?_
  obtain ⟨names, nonempty, areNames, rfl, _, foundAlike⟩ := exists_below_of_mem_origins proper
    firstLeads secondLeads alike permits permitsSecond isOrigin
  rw [Function.comp_apply, moved, relocated_below first second nonempty areNames, located, located,
    placeOf?, placeOf?, foundAlike.locate]
  rfl

/-- The samples of the project under a path with a step and a slash more. -/
theorem analyze_of_seesAlike_dotted :
    ∃ settings methods others, Settings.load draftsProject (.ofString "/proj") none = .ok settings ∧
      settings.configPath = some (.ofString "/proj/.wizardrc.json") ∧
      analyze draftsProject (.ofString "/proj/samples") .none (some settings) = .ok methods ∧
      analyze draftsProject (.ofString "/proj/./samples/") .none (some settings) = .ok others ∧
      (∃ found foundOther : List (Path × Method),
        methods = found.map (·.2) ∧ others = foundOther.map (·.2) ∧
        found.map (located draftsProject) = foundOther.map (located draftsProject)) ∧
      methods.map (·.name) = ["list"] := by
  obtain ⟨settings, loaded, isConfig, named⟩ : ∃ settings,
      Settings.load draftsProject (.ofString "/proj") none = .ok settings ∧
      settings.configPath = some (.ofString "/proj/.wizardrc.json") ∧
      ((analyze draftsProject (.ofString "/proj/samples") .none (some settings)).toOption.any
        fun methods => methods.map (·.name) = ["list"]) = true :=
    exists_ok (by decide +kernel)
  have alike : ∀ given, some settings = some given →
      given.SeesAlike (.ofString "/proj/samples") (.ofString "/proj/./samples/") := by
    rintro _ ⟨⟩ directory isDirectory
    obtain ⟨config, isPath, isParent, _⟩ := Settings.configDirectory?_eq_some_iff.mp isDirectory
    cases isConfig.symm.trans isPath
    have isProject : (Path.ofString "/proj/.wizardrc.json").parent? = some (.ofString "/proj") := by
      decide
    cases isProject.symm.trans isParent
    decide
  have firstLeads : draftsProject.locate true (.ofString "/proj/samples") =
      .ok (.found [Text.bytes "samples", Text.bytes "proj"] (.directory
        [(Text.bytes "list.js", .file (some "function list() {}\nlist();\n"))])) := rfl
  have secondLeads : draftsProject.locate true (.ofString "/proj/./samples/") =
      .ok (.found [Text.bytes "samples", Text.bytes "proj"] (.directory
        [(Text.bytes "list.js", .file (some "function list() {}\nlist();\n"))])) := rfl
  have permits : ∀ path, draftsProject.Permits path :=
    FileTree.permits_of_refuses_eq_none fun _ => rfl
  obtain ⟨methods, analyzed, names⟩ := exists_ok named
  have analyzedOther : analyze draftsProject (.ofString "/proj/./samples/") .none (some settings) =
      .ok _ := analyze_eq_ok_iff.mpr ⟨permits _, rfl⟩
  obtain ⟨found, foundOther, isFound, isOther, _, _, same⟩ := analyze_of_seesAlike (by decide)
    firstLeads secondLeads alike analyzed analyzedOther
  exact ⟨settings, methods, _, loaded, isConfig, analyzed, analyzedOther,
    ⟨found, foundOther, isFound, isOther, same⟩, names⟩

/-- **The drafts are left out under one path and analysed under another one**, both of which lead to
them. -/
theorem analyze_otherSpelling :
    draftsProject.isLinkFree = true ∧
    (∃ entries,
      draftsProject.locate true (.ofString "/proj/drafts") =
        .ok (.found [Text.bytes "drafts", Text.bytes "proj"] (.directory entries)) ∧
      draftsProject.locate true (.ofString "/proj/../proj/drafts") =
        .ok (.found [Text.bytes "drafts", Text.bytes "proj"] (.directory entries))) ∧
    placeOf? draftsProject (.ofString "/proj/../proj/drafts/sketch.js") =
      some [Text.bytes "sketch.js", Text.bytes "drafts", Text.bytes "proj"] ∧
    ∃ settings, Settings.load draftsProject (.ofString "/proj") none = .ok settings ∧
      settings.configPath = some (.ofString "/proj/.wizardrc.json") ∧
      analyze draftsProject (.ofString "/proj/drafts") .none (some settings) = .ok [] ∧
      analyze draftsProject (.ofString "/proj/../proj/drafts") .none (some settings) =
        .ok [⟨"sketch", "/proj/../proj/drafts/sketch.js", .ofNat 1, .ofNat 1, []⟩] := by
  refine ⟨by decide, ⟨_, rfl, rfl⟩, by decide, ?_⟩
  obtain ⟨settings, loaded, isConfig, none, one⟩ : ∃ settings,
      Settings.load draftsProject (.ofString "/proj") none = .ok settings ∧
      settings.configPath = some (.ofString "/proj/.wizardrc.json") ∧
      ((analyze draftsProject (.ofString "/proj/drafts") .none (some settings)).toOption.any
        fun methods => methods = []) = true ∧
      ((analyze draftsProject (.ofString "/proj/../proj/drafts") .none
        (some settings)).toOption.any fun methods => methods =
          [⟨"sketch", "/proj/../proj/drafts/sketch.js", .ofNat 1, .ofNat 1, []⟩]) = true :=
    exists_ok (by decide +kernel)
  obtain ⟨_, noMethods, rfl⟩ := exists_ok none
  obtain ⟨_, oneMethod, rfl⟩ := exists_ok one
  exact ⟨settings, loaded, isConfig, noMethods, oneMethod⟩

end Project

end SampleMethods
