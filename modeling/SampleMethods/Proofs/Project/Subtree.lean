import SampleMethods.Glob.Compiler
import SampleMethods.Proofs.Config.RelativePath
import SampleMethods.Proofs.FileTree.Reach
import SampleMethods.Proofs.Project.Contribution

/-!
# Analyses of a part of a project

An analysis that starts further down in a project gives what the analysis of the
whole gives for the files there, if the patterns see these files from the directory
of the configuration on (`analyze_of_reaches`). The search finds the same files from
either start, in the same order, the patterns see them under the same paths, and
sorting methods does not change the order of those that are equal.
-/

set_option autoImplicit false

namespace SampleMethods.Project

open FileTree (Reaches StandsAt)
open Text (Bytes)

variable {tree : FileTree} {overrides : Overrides} {settings : Settings}
  {directory root path : Path} {entry : FileTree.Entry} {entries : List (Bytes × FileTree.Entry)}

/-! ## The order of contributions -/

theorem contributions_precedes (proper : tree.isProper = true) (path : Path)
    (overrides : Overrides) (settings : Option Settings) :
    (contributions tree path overrides settings).Pairwise (·.1.Precedes ·.1) := by
  rw [contributions, List.pairwise_filterMap]
  refine ((FileTree.selected_precedes proper path).filter _).imp ?_
  intro first second precedes one isFirst other isSecond
  obtain ⟨_, _, rfl⟩ := Option.map_eq_some_iff.mp isFirst
  obtain ⟨_, _, rfl⟩ := Option.map_eq_some_iff.mp isSecond
  exact precedes

/-- Rows of contributions in order are the same if the same contributions are in them. -/
theorem contributions_eq {parts others : List (Path × List Method)}
    (sorted : parts.Pairwise (·.1.Precedes ·.1)) (othersSorted : others.Pairwise (·.1.Precedes ·.1))
    (same : ∀ part, part ∈ parts ↔ part ∈ others) : parts = others := by
  have apart : ∀ first second : Path × List Method, first.1.Precedes second.1 →
      ¬second.1.Precedes first.1 := by
    intro first second below above
    rw [Path.precedes_iff] at below above
    exact lt_asymm below above
  have distinct : ∀ {items : List (Path × List Method)},
      items.Pairwise (·.1.Precedes ·.1) → items.Nodup :=
    fun ordered => ordered.imp fun {first second} below isSame => by
      subst isSame
      exact apart _ _ below below
  have perm := (List.perm_ext_iff_of_nodup (distinct sorted) (distinct othersSorted)).mpr same
  exact perm.eq_of_pairwise (fun first second _ _ below above => absurd above (apart _ _ below))
    sorted othersSorted

/-! ## The files of a part -/

section Part

variable (proper : tree.isProper = true) (isRoot : tree.entry root = .ok (.directory entries))
  (reaches : Reaches root (.directory entries) path entry)

include proper isRoot reaches

/-- The path of a part leads to it, or it cannot be followed at all. -/
theorem entry_of_reaches :
    tree.entry path = .ok entry ∨
      path.IsOpenEnded ∧ ∃ error, tree.locate true path = .error error := by
  obtain ⟨place, leads⟩ := FileTree.exists_locate_of_entry isRoot
  cases reaches.standsAt (FileTree.isProper_of_entry proper isRoot) (.found place leads) with
  | found place leads => exact .inl (by rw [FileTree.entry, leads])
  | unreachable error openEnded _ fails => exact .inr ⟨openEnded, error, fails⟩

/-- The path of a part leads to nothing else. -/
theorem eq_of_entry_of_reaches {part : FileTree.Entry} (isPart : tree.entry path = .ok part) :
    part = entry := by
  rcases entry_of_reaches proper isRoot reaches with isEntry | ⟨_, error, fails⟩
  · exact Except.ok.inj (isPart.symm.trans isEntry)
  · rw [FileTree.entry, fails] at isPart
    cases isPart

/-- What may be searched as a whole may be searched in part. -/
theorem permits_of_reaches (permits : tree.Permits root) : tree.Permits path := by
  intro part isPart
  obtain rfl := eq_of_entry_of_reaches proper isRoot reaches isPart
  exact (permits _ isRoot).of_reaches reaches

/-- **The files of a part that can be read are those of the whole that lie under its path.** -/
theorem mem_selected_of_reaches {file : Path} {text : String}
    (isRead : tree.readText file = .ok text) :
    file ∈ tree.selected isSource path ↔
      file ∈ tree.selected isSource root ∧ file.LiesUnder path := by
  have rootProper := FileTree.isProper_of_entry proper isRoot
  have partProper := reaches.isProper rootProper
  simp only [FileTree.mem_selected_iff]
  constructor
  · rintro ⟨isSource, part, content, isPart, further⟩
    obtain rfl := eq_of_entry_of_reaches proper isRoot reaches isPart
    exact ⟨⟨isSource, _, content, isRoot, reaches.trans further⟩, further.liesUnder partProper⟩
  · rintro ⟨⟨isSource, whole, content, isWhole, fromRoot⟩, liesUnder⟩
    cases isRoot.symm.trans isWhole
    have further := reaches.of_liesUnder rootProper fromRoot liesUnder
    rcases entry_of_reaches proper isRoot reaches with isEntry | ⟨openEnded, fails⟩
    · exact ⟨isSource, entry, content, isEntry, further⟩
    · -- Then the file could not be read either.
      obtain ⟨error, fails⟩ := further.exists_error partProper openEnded fails
      rw [FileTree.readText, FileTree.entry, fails] at isRead
      cases isRead

/-- **The files that contribute to the analysis of a part are those of the whole that lie under its
path**, where the patterns see them alike from either start. -/
theorem contributions_of_reaches (permits : tree.Permits root)
    (sameView : ∀ file, file.LiesUnder path →
      settings.relativePath file (rootOf tree path) =
        settings.relativePath file (rootOf tree root)) :
    contributions tree path overrides (some settings) =
      (contributions tree root overrides (some settings)).filter fun part =>
        part.1.LiesUnder path := by
  have permitsPart := permits_of_reaches proper isRoot reaches permits
  refine contributions_eq (contributions_precedes proper path _ _)
    ((contributions_precedes proper root _ _).filter _) fun ⟨file, methods⟩ => ?_
  rw [List.mem_filter, decide_eq_true_eq, mem_contributions permits,
    mem_contributions permitsPart]
  constructor
  · rintro ⟨⟨files, areFiles, collected⟩, passes, analyzed⟩
    obtain ⟨_, rfl⟩ := sourceFiles_eq_ok_iff.mp areFiles
    obtain ⟨text, _, isRead, _⟩ := exists_of_analyzeFile analyzed
    obtain ⟨inWhole, liesUnder⟩ :=
      (mem_selected_of_reaches proper isRoot reaches isRead).mp collected
    refine ⟨⟨⟨_, sourceFiles_eq_ok_iff.mpr ⟨permits, rfl⟩, inWhole⟩, ?_, analyzed⟩, liesUnder⟩
    rintro _ ⟨⟩
    rw [← sameView file liesUnder]
    exact passes settings rfl
  · rintro ⟨⟨⟨files, areFiles, collected⟩, passes, analyzed⟩, liesUnder⟩
    obtain ⟨_, rfl⟩ := sourceFiles_eq_ok_iff.mp areFiles
    obtain ⟨text, _, isRead, _⟩ := exists_of_analyzeFile analyzed
    have inPart :=
      (mem_selected_of_reaches proper isRoot reaches isRead).mpr ⟨collected, liesUnder⟩
    refine ⟨⟨_, sourceFiles_eq_ok_iff.mpr ⟨permitsPart, rfl⟩, inPart⟩, ?_, analyzed⟩
    rintro _ ⟨⟩
    rw [sameView file liesUnder]
    exact passes settings rfl

end Part

/-! ## The methods of a part -/

theorem origins_comparesBy : ComparesBy (fun origin : Path × Method => origin.2.key)
    fun first second => first.2.isAtMost second.2 :=
  fun first second => Method.isAtMost_comparesBy first.2 second.2

/-- What is left of the contributions of files is left of their methods. -/
theorem origins_eq_filter {other : Path} {given : Option Settings} (keep : Path → Bool)
    (parts : contributions tree other overrides given =
      (contributions tree root overrides given).filter fun part => keep part.1) :
    origins tree other overrides given =
      (origins tree root overrides given).filter fun origin => keep origin.1 := by
  rw [origins, origins, origins_comparesBy.filter_mergeSort, parts]
  congr 1
  induction contributions tree root overrides given with
  | nil => rfl
  | cons part parts ih =>
      have here : (withFile part).filter (fun origin => keep origin.1) =
          if keep part.1 then withFile part else [] := by
        rw [withFile, List.filter_map]
        cases kept : keep part.1 with
        | true => simp [Function.comp_def, kept]
        | false => simp [Function.comp_def, kept]
      rw [List.filter_cons, List.flatMap_cons, List.filter_append, ← ih, here]
      split_ifs
      · rfl
      · rfl

/-- **The analysis of a part of a project is a part of the analysis of the project**, where the
analysed directory lies under that of the configuration and can be searched: whatever the search
from the directory reaches, a directory or a file, its analysis gives the methods of the whole whose
files lie under its path, in the same order. Where the paths of the methods show which files these
are, they are the methods whose paths lie there. -/
theorem analyze_of_reaches (proper : tree.isProper = true) {config : Path}
    (isConfig : settings.configPath = some config) (isParent : config.parent? = some directory)
    (nonempty : directory.text ≠ []) (rootUnder : root.LiesUnder directory)
    (isRoot : tree.entry root = .ok (.directory entries))
    (reaches : Reaches root (.directory entries) path entry) {methods : List Method}
    (analyzed : analyze tree root overrides (some settings) = .ok methods) :
    ∃ found : List (Path × Method), methods = found.map (·.2) ∧
      (∀ file method, (file, method) ∈ found ↔ ∃ others,
        Contributes tree root overrides (some settings) file others ∧ method ∈ others) ∧
      analyze tree path overrides (some settings) =
        .ok ((found.filter fun origin => origin.1.LiesUnder path).map (·.2)) ∧
      ((∀ file method, (file, method) ∈ found →
          ((Path.ofString method.sourcePath).LiesUnder path ↔ file.LiesUnder path)) →
        analyze tree path overrides (some settings) =
          .ok (methods.filter fun method => (Path.ofString method.sourcePath).LiesUnder path)) := by
  have isDirectory : settings.configDirectory? = some directory :=
    Settings.configDirectory?_eq_some_iff.mpr ⟨config, isConfig, isParent, nonempty⟩
  have pathUnder := reaches.liesUnder (FileTree.isProper_of_entry proper isRoot)
  have sameView : ∀ file, file.LiesUnder path →
      settings.relativePath file (rootOf tree path) =
        settings.relativePath file (rootOf tree root) := fun file liesUnder =>
    settings.relativePath_of_liesUnder isDirectory
      (rootUnder.trans (pathUnder.trans liesUnder)) _ _
  obtain ⟨permits, rfl⟩ := analyze_eq_ok_iff_origins.mp analyzed
  have ofPart : analyze tree path overrides (some settings) =
      .ok (((origins tree root overrides (some settings)).filter
        fun origin => origin.1.LiesUnder path).map (·.2)) := by
    have parts : origins tree path overrides (some settings) =
        (origins tree root overrides (some settings)).filter
          fun origin => origin.1.LiesUnder path :=
      origins_eq_filter (fun file => file.LiesUnder path)
        (contributions_of_reaches proper isRoot reaches permits sameView)
    exact analyze_eq_ok_iff_origins.mpr
      ⟨permits_of_reaches proper isRoot reaches permits, congrArg _ parts.symm⟩
  refine ⟨_, rfl, fun file method => mem_origins_iff permits, ofPart, fun shown => ?_⟩
  rw [ofPart, List.filter_map]
  refine congrArg _ (congrArg _ (List.filter_congr fun ⟨file, method⟩ member => ?_))
  exact decide_eq_decide.mpr (shown file method member).symm

/-- What is in a project whose configuration leaves out its drafts. -/
def draftsEntries : List (Bytes × FileTree.Entry) :=
  [(Text.bytes ".wizardrc.json", .file (some "\x7b\"exclude\": [\"drafts/**\"]\x7d")),
    (Text.bytes "drafts", .directory
      [(Text.bytes "sketch.js", .file (some "function sketch() {}\nsketch();\n"))]),
    (Text.bytes "samples", .directory
      [(Text.bytes "list.js", .file (some "function list() {}\nlist();\n"))])]

/-- The tree with the project in the directory `/proj`. -/
def draftsProject : FileTree where
  root := .directory [(Text.bytes "proj", .directory draftsEntries)]
  workingDirectory := []

/-- The samples of the project, analysed by themselves and as a part of the project. -/
theorem analyze_of_reaches_samples :
    ∃ settings methods, Settings.load draftsProject (.ofString "/proj") none = .ok settings ∧
      settings.configPath = some (.ofString "/proj/.wizardrc.json") ∧
      analyze draftsProject (.ofString "/proj") .none (some settings) = .ok methods ∧
      analyze draftsProject (.ofString "/proj/samples") .none (some settings) =
        .ok (methods.filter fun method =>
          (Path.ofString method.sourcePath).LiesUnder (.ofString "/proj/samples")) ∧
      (methods.filter fun method =>
        (Path.ofString method.sourcePath).LiesUnder (.ofString "/proj/samples")).map (·.name) =
          ["list"] := by
  obtain ⟨settings, loaded, isConfig, named⟩ : ∃ settings,
      Settings.load draftsProject (.ofString "/proj") none = .ok settings ∧
      settings.configPath = some (.ofString "/proj/.wizardrc.json") ∧
      ((analyze draftsProject (.ofString "/proj/samples") .none (some settings)).toOption.any
        fun methods => methods.map (·.name) = ["list"]) = true :=
    exists_ok (by decide +kernel)
  have isParent : (Path.ofString "/proj/.wizardrc.json").parent? = some (.ofString "/proj") := by
    decide
  have isSamples : (Path.ofString "/proj").child (Text.bytes "samples") =
      .ofString "/proj/samples" := by decide
  have isEntry : (Text.bytes "samples", FileTree.Entry.directory
      [(Text.bytes "list.js", .file (some "function list() {}\nlist();\n"))]) ∈ draftsEntries := by
    simp [draftsEntries]
  have reaches := Reaches.inside isEntry (by decide)
    (.here ((Path.ofString "/proj").child (Text.bytes "samples")) _)
  rw [isSamples] at reaches
  have isRoot : draftsProject.entry (.ofString "/proj") = .ok (.directory draftsEntries) := rfl
  have permits : draftsProject.Permits (.ofString "/proj") :=
    FileTree.permits_of_refuses_eq_none (fun _ => rfl) _
  -- The paths of both source files are texts.
  have texts : ∀ file ∈ draftsProject.selected isSource (.ofString "/proj"),
      Path.ofString file.toString = file := by
    rw [FileTree.selected, isRoot]
    simp only [List.mem_mergeSort]
    decide +kernel
  obtain ⟨found, _, isFound, _, asShown⟩ := analyze_of_reaches (by decide) isConfig isParent
    (by decide) (by decide) isRoot reaches
    (analyze_eq_ok_iff.mpr ⟨permits, rfl⟩ : analyze draftsProject _ .none (some settings) = _)
  have isPart := asShown fun file method member => by
    obtain ⟨others, ⟨⟨files, areFiles, collected⟩, _, analyzed⟩, isMethod⟩ :=
      (isFound file method).mp member
    obtain ⟨_, rfl⟩ := sourceFiles_eq_ok_iff.mp areFiles
    rw [(analyzeFile_ofOneFile analyzed).sourcePath method isMethod, texts file collected]
  rw [isPart] at named
  exact ⟨settings, _, loaded, isConfig, analyze_eq_ok_iff.mpr ⟨permits, rfl⟩, isPart,
    of_decide_eq_true named⟩

/-- Settings that let every file through, from a configuration in the directory `/proj`. -/
def openSettings : Settings :=
  ⟨none, [], .auto, true, some (.ofString "/proj/.wizardrc.json")⟩

/-- One of the two directories that are shown under one path. -/
def alikePart : Path :=
  (Path.ofString "/proj").child [0xFF]

/-- **The methods of a part need not be those whose paths lie there**, because a path may be shown
as another one; and a directory that a search cannot go through may have a part that it can. -/
theorem not_analyze_of_reaches :
    (alikeTree.isProper = true ∧
      (∃ entries part, alikeTree.entry (.ofString "/proj") = .ok (.directory entries) ∧
        Reaches (.ofString "/proj") (.directory entries) alikePart part) ∧
      analyze alikeTree (.ofString "/proj") .none (some openSettings) =
        .ok [alikeMethod, alikeMethod] ∧
      analyze alikeTree alikePart .none (some openSettings) = .ok [alikeMethod] ∧
      [alikeMethod, alikeMethod].filter
        (fun method => (Path.ofString method.sourcePath).LiesUnder alikePart) = []) ∧
    FileTree.scriptTree.isProper = true ∧
      FileTree.scriptTree.entry FileTree.longRoot = .ok (.directory FileTree.twoScripts) ∧
      Reaches FileTree.longRoot (.directory FileTree.twoScripts)
        (FileTree.longRoot.child (Text.bytes "a.js"))
        (.file (some "function f() {}\nf();\n")) ∧
      ∀ overrides settings,
        (∃ methods, analyze FileTree.scriptTree
          (FileTree.longRoot.child (Text.bytes "a.js")) overrides settings = .ok methods) ∧
        ¬∃ methods, analyze FileTree.scriptTree FileTree.longRoot overrides settings =
          .ok methods := by
  refine ⟨⟨by decide, ⟨_, _, rfl, .inside List.mem_cons_self (by decide) (.here _ _)⟩, ?_, ?_,
    by decide⟩, by decide, by rw [FileTree.entry, FileTree.locate_longRoot],
    .inside List.mem_cons_self rfl (.here _ _), fun overrides settings => ⟨?_, ?_⟩⟩
  · exact analyze_alikeTree (some openSettings) rfl fun _ => rfl
  · obtain ⟨methods, analyzed, rfl⟩ : ∃ methods,
        analyze alikeTree alikePart .none (some openSettings) = .ok methods ∧
          methods = [alikeMethod] :=
      exists_ok (by decide +kernel)
    exact analyzed
  · refine ⟨_, analyze_eq_ok_iff.mpr ⟨fun entry isEntry => ?_, rfl⟩⟩
    have isRoot : FileTree.scriptTree.entry FileTree.longRoot =
        .ok (.directory FileTree.twoScripts) := by
      rw [FileTree.entry, FileTree.locate_longRoot]
    cases eq_of_entry_of_reaches (by decide) isRoot (.inside List.mem_cons_self rfl (.here _ _))
      isEntry
    exact FileTree.permitsFrom_file _
  · rintro ⟨methods, analyzed⟩
    exact FileTree.not_permits_longRoot (analyze_eq_ok_iff.mp analyzed).1

end SampleMethods.Project
