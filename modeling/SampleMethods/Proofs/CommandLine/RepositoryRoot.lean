import Mathlib.Data.List.Infix
import SampleMethods.CommandLine
import SampleMethods.Glob.Compiler
import SampleMethods.Proofs.Config.Discovery
import SampleMethods.Proofs.FileTree.LinkFree
import SampleMethods.Proofs.Path.Prefix

/-!
# Roots of repositories

From a directory one looks for a repository there, then in the directory that the
parent of the path leads to, and so on. This ends for every path (`climbs_climb`),
because a parent is written with less text.

The parents of a path are where its components lead, one after the other. If there is
a repository around the directory, one of these places has it
(`exists_front_of_suffix`), so it is not missed. But behind `..` the places on the way
need not be around the directory, and a repository may be found that has nothing to do
with it (`repositoryRoot?_aside`). Without `..` what is found is the innermost one
around the directory.
-/

set_option autoImplicit false

namespace SampleMethods.CommandLine

open FileTree (Entry Place placeOf)

variable {tree : FileTree} {path directory root : Path} {place : Place}
  {entries : List (Text.Bytes × Entry)}

/-! ## The search -/

/-- The search for a repository that starts at a directory ends with the result. -/
inductive Climbs (tree : FileTree) : Path → Option Path → Prop where
  | here {directory : Path} : tree.hasEntry (directory.child (Text.bytes ".git")) = true →
      Climbs tree directory (some directory)
  | top {directory : Path} : tree.hasEntry (directory.child (Text.bytes ".git")) = false →
      directory.parent? = none → Climbs tree directory none
  | up {directory parent : Path} {result : Option Path} :
      tree.hasEntry (directory.child (Text.bytes ".git")) = false →
        directory.parent? = some parent → Climbs tree parent result → Climbs tree directory result

/-- **The search ends**, after no more rounds than the path has characters, and one. -/
theorem climbs_climb {rounds : Nat} (enough : directory.text.length < rounds) :
    Climbs tree directory (climb tree rounds directory) := by
  induction rounds generalizing directory with
  | zero => exact absurd enough (Nat.not_lt_zero _)
  | succ rounds ih =>
      rw [climb]
      cases isThere : tree.hasEntry (directory.child (Text.bytes ".git")) with
      | true => exact .here isThere
      | false =>
          cases isParent : directory.parent? with
          | none => exact .top isThere isParent
          | some parent =>
              have shorter := Path.length_parent?_lt isParent
              exact .up isThere isParent (ih (by omega))

theorem climbs_repositoryRoot? (tree : FileTree) (path : Path) :
    Climbs tree (directoryOf tree path) (repositoryRoot? tree path) :=
  climbs_climb (Nat.lt_succ_self _)

/-! ## Repositories at places -/

/-- The directory at a place has a repository in it. -/
def HoldsRepository (tree : FileTree) (place : Place) : Prop :=
  (tree.entryAt? (Text.bytes ".git" :: place)).isSome = true

instance (tree : FileTree) (place : Place) : Decidable (HoldsRepository tree place) :=
  inferInstanceAs (Decidable (_ = true))

theorem hasEntry_repository_iff (linkFree : tree.isLinkFree = true)
    (absolute : directory.isAbsolute = true)
    (leads : tree.locate true directory = .ok (.found place (.directory entries))) :
    tree.hasEntry (directory.child (Text.bytes ".git")) = true ↔ HoldsRepository tree place := by
  have isThere := (FileTree.place_of_locate linkFree absolute leads).2
  have isName : FileTree.isName (Text.bytes ".git") = true := by decide
  have leadsOn := FileTree.locate_child_of_linkFree linkFree absolute isName (by decide) leads
  rw [FileTree.underName, if_neg (by decide)] at leadsOn
  rw [FileTree.hasEntry_iff, leadsOn, HoldsRepository, FileTree.entryAt?_name isThere]
  cases entries.lookup (Text.bytes ".git") with
  | none => simp
  | some child => simp

/-- The root is what the path begins with up to a place that has a repository, and no further place
on the way has one. -/
structure IsNearest (tree : FileTree) (path root : Path) : Prop where
  liesUnder : path.LiesUnder root
  holds : HoldsRepository tree (placeOf root.components)
  nearest : ∀ front, front <+: path.components → HoldsRepository tree (placeOf front) →
    front <+: root.components

/-- The place is the innermost one that is around another place, or is that place, and has a
repository. -/
structure IsInnermost (tree : FileTree) (start place : Place) : Prop where
  encloses : place <:+ start
  holds : HoldsRepository tree place
  innermost : ∀ other, other <:+ start → HoldsRepository tree other → other <:+ place

section Search

variable (linkFree : tree.isLinkFree = true) (absolute : directory.isAbsolute = true)
  (leads : tree.locate true directory = .ok (.found place (.directory entries)))

include linkFree absolute leads

/-- The place of a directory without a repository is none that has one, and the others are places
of the parent. -/
theorem front_of_parent? {parent : Path} {front : List Path.Component}
    (isNone : tree.hasEntry (directory.child (Text.bytes ".git")) = false)
    (isParent : directory.parent? = some parent) (isFront : front <+: directory.components)
    (holds : HoldsRepository tree (placeOf front)) : front <+: parent.components := by
  obtain ⟨_, last, isComponents⟩ := Path.components_of_parent? absolute isParent
  rw [isComponents, List.prefix_concat_iff, ← isComponents] at isFront
  rcases isFront with rfl | isFront
  · rw [← (FileTree.place_of_locate linkFree absolute leads).1,
      ← hasEntry_repository_iff linkFree absolute leads, isNone] at holds
    cases holds
  · exact isFront

end Search

/-- What a search from a directory finds: the nearest place on the way that has a repository, or
nothing because no place on the way has one. -/
def Finds (tree : FileTree) (directory : Path) : Option Path → Prop
  | some root => IsNearest tree directory root
  | none => ∀ front, front <+: directory.components → ¬HoldsRepository tree (placeOf front)

/-- **A search finds the nearest repository on the way**, and finds none only if there is none. -/
theorem Climbs.finds {result : Option Path} (climbs : Climbs tree directory result)
    (linkFree : tree.isLinkFree = true) (absolute : directory.isAbsolute = true)
    (leads : tree.locate true directory = .ok (.found place (.directory entries))) :
    Finds tree directory result := by
  induction climbs generalizing place entries with
  | @here directory isThere =>
      have isPlace := (FileTree.place_of_locate linkFree absolute leads).1
      have holds := (hasEntry_repository_iff linkFree absolute leads).mp isThere
      exact ⟨List.prefix_refl _, isPlace ▸ holds, fun front isFront _ => isFront⟩
  | @top directory isNone isTop =>
      have isRoot := Path.components_of_parent?_eq_none absolute isTop
      have notHere : ¬HoldsRepository tree (placeOf directory.components) := by
        rw [← (FileTree.place_of_locate linkFree absolute leads).1,
          ← hasEntry_repository_iff linkFree absolute leads, isNone]
        exact Bool.false_ne_true
      intro front isFront
      have isFront : front <+: [] ++ [.root] := isRoot ▸ isFront
      rw [isRoot] at notHere
      -- Nothing at all leads where the root is, too.
      rcases List.prefix_concat_iff.mp isFront with rfl | isFront
      · exact notHere
      · rw [List.prefix_nil.mp isFront]
        exact notHere
  | @up directory parent result isNone isParent _ ih =>
      obtain ⟨parentAbsolute, last, isComponents⟩ := Path.components_of_parent? absolute isParent
      obtain ⟨above, others, leadsAbove⟩ := FileTree.exists_locate_parent absolute isParent leads
      have finds := ih parentAbsolute leadsAbove
      have inParent : ∀ front, front <+: directory.components →
          HoldsRepository tree (placeOf front) → front <+: parent.components :=
        fun front => front_of_parent? linkFree absolute leads isNone isParent
      cases result with
      | none => exact fun front isFront holds => finds front (inParent front isFront holds) holds
      | some root =>
          have liesUnder : directory.LiesUnder parent := ⟨[last], isComponents.symm⟩
          exact ⟨finds.liesUnder.trans liesUnder, finds.holds, fun front isFront holds =>
            finds.nearest front (inParent front isFront holds) holds⟩

/-- What is found leads to a directory. -/
theorem Climbs.exists_locate (climbs : Climbs tree directory (some root))
    (absolute : directory.isAbsolute = true)
    (leads : tree.locate true directory = .ok (.found place (.directory entries))) :
    root.isAbsolute = true ∧
      ∃ there others, tree.locate true root = .ok (.found there (.directory others)) := by
  generalize isRoot : some root = result at climbs
  induction climbs generalizing place entries with
  | here _ =>
      cases isRoot
      exact ⟨absolute, place, entries, leads⟩
  | top _ _ => cases isRoot
  | up _ isParent _ ih =>
      obtain ⟨above, others, leadsAbove⟩ := FileTree.exists_locate_parent absolute isParent leads
      exact ih (Path.components_of_parent? absolute isParent).1 leadsAbove isRoot

/-! ## Places on the way and places around -/

/-- **Every place around the end of the way is on the way.** -/
theorem exists_front_of_suffix {components : List Path.Component} {other : Place}
    (encloses : other <:+ placeOf components) :
    ∃ front, front <+: components ∧ placeOf front = other := by
  induction components using List.reverseRecOn with
  | nil => exact ⟨[], List.prefix_refl _, (List.suffix_nil.mp encloses).symm⟩
  | append_singleton components last ih =>
      rw [FileTree.placeOf_concat] at encloses
      rcases FileTree.suffix_stepFrom encloses with rfl | encloses
      · exact ⟨components ++ [last], List.prefix_refl _, FileTree.placeOf_concat components last⟩
      · obtain ⟨front, isFront, isPlace⟩ := ih encloses
        exact ⟨front, isFront.trans (List.prefix_append _ _), isPlace⟩

/-- A way that does not go up passes only places around its end. -/
theorem suffix_foldl_stepFrom {components : List Path.Component}
    (noUp : .up ∉ components) (noRoot : .root ∉ components) (place : Place) :
    place <:+ components.foldl FileTree.stepFrom place := by
  induction components generalizing place with
  | nil => exact List.suffix_refl place
  | cons first rest ih =>
      rw [List.mem_cons, not_or] at noUp noRoot
      refine List.IsSuffix.trans ?_ (ih noUp.2 noRoot.2 _)
      cases first with
      | root => exact absurd rfl noRoot.1
      | up => exact absurd rfl noUp.1
      | here => exact List.suffix_refl place
      | name text => exact List.suffix_cons text place

theorem placeOf_suffix {front : List Path.Component} (isFront : front <+: path.components)
    (noUp : .up ∉ path.components) : placeOf front <:+ placeOf path.components := by
  obtain ⟨behind, isComponents⟩ := isFront
  cases front with
  | nil => exact List.nil_suffix
  | cons first rest =>
      have noRoot : .root ∉ behind := by
        intro isRoot
        refine Path.root_not_mem_tail_components path ?_
        rw [← isComponents]
        exact List.mem_append_right rest isRoot
      rw [← isComponents] at noUp ⊢
      rw [placeOf, placeOf, List.foldl_append]
      exact suffix_foldl_stepFrom (fun isUp => noUp (List.mem_append_right _ isUp)) noRoot _

/-- **What is found on a way that does not go up is the innermost repository around its end.** -/
theorem IsNearest.isInnermost (nearest : IsNearest tree directory root)
    (noUp : .up ∉ directory.components) :
    IsInnermost tree (placeOf directory.components) (placeOf root.components) where
  encloses := placeOf_suffix nearest.liesUnder noUp
  holds := nearest.holds
  innermost := by
    intro other encloses holds
    obtain ⟨front, isFront, rfl⟩ := exists_front_of_suffix encloses
    have rootNoUp : .up ∉ root.components := fun isUp => noUp (nearest.liesUnder.mem isUp)
    exact placeOf_suffix (nearest.nearest front isFront holds) rootNoUp

/-! ## The root of a path -/

/-- The path leads to the directory at a place, or to a file in that directory. -/
def LeadsInto (tree : FileTree) (path : Path) (place : Place) : Prop :=
  ∃ there entry, tree.locate true path = .ok (.found there entry) ∧
    place = if entry.isFile then there.tail else there

/-- The search for the repository of a path starts at the place that the path leads into. -/
theorem LeadsInto.exists_locate (linkFree : tree.isLinkFree = true)
    (absolute : path.isAbsolute = true) (leads : LeadsInto tree path place) :
    (directoryOf tree path).isAbsolute = true ∧ path.LiesUnder (directoryOf tree path) ∧
      ∃ entries, tree.locate true (directoryOf tree path) =
        .ok (.found place (.directory entries)) := by
  obtain ⟨there, entry, leads, rfl⟩ := leads
  have isEntry : tree.entry path = .ok entry := by rw [FileTree.entry, leads]
  rw [directoryOf, FileTree.isFile, isEntry]
  cases entry with
  | directory entries => exact ⟨absolute, List.prefix_refl _, entries, leads⟩
  | file text =>
      obtain ⟨parent, entries, isParent, leadsAbove⟩ :=
        FileTree.exists_parent_of_file linkFree absolute leads
      obtain ⟨parentAbsolute, last, isComponents⟩ := Path.components_of_parent? absolute isParent
      have liesUnder : path.LiesUnder parent := ⟨[last], isComponents.symm⟩
      simp only [Entry.isFile, if_true, isParent, Option.getD_some]
      exact ⟨parentAbsolute, liesUnder, entries, leadsAbove⟩
  | link target =>
      have isThere := (FileTree.place_of_locate linkFree absolute leads).2
      cases Entry.isLinkFree_descend? linkFree isThere

theorem absolutePath_isAbsolute (tree : FileTree) (given : Path) :
    (absolutePath tree given).isAbsolute = true := by
  rw [absolutePath]
  split_ifs with absolute
  · exact absolute
  · rw [Path.join, if_neg absolute]
    split_ifs
    · rfl
    · rfl

/-- The configuration of the settings, if they have one, is in a directory around the place. -/
def ConfiguredAround (tree : FileTree) (settings : Settings) (place : Place) : Prop :=
  ∀ file, settings.configPath = some file →
    ∃ name there entry, tree.locate true file = .ok (.found (name :: there) entry) ∧
      there <:+ place

theorem isName_of_mem_candidates {name : String} (isCandidate : name ∈ Config.candidates) :
    FileTree.isName (Text.bytes name) = true ∧ 0 ∉ Text.bytes name := by
  have each : ∀ name ∈ Config.candidates,
      FileTree.isName (Text.bytes name) = true ∧ 0 ∉ Text.bytes name := by decide
  exact each name isCandidate

/-- The configuration of a directory around a place is around the place. -/
theorem configuredAround_of_load [Glob.Compiler] {settings : Settings} {start : Place}
    (linkFree : tree.isLinkFree = true) (absolute : root.isAbsolute = true)
    (leads : tree.locate true root = .ok (.found place (.directory entries)))
    (loaded : settingsFor tree root none = .ok settings) (encloses : place <:+ start) :
    ConfiguredAround tree settings start := by
  intro file isConfig
  obtain ⟨name, isCandidate, rfl, isThere⟩ :=
    Settings.exists_name_of_load (Failure.of_during loaded) isConfig
  obtain ⟨isName, noNul⟩ := isName_of_mem_candidates isCandidate
  obtain ⟨there, entry, found⟩ := FileTree.hasEntry_iff.mp isThere
  have leadsOn := FileTree.locate_child_of_linkFree linkFree absolute isName noNul leads
  rw [FileTree.underName] at leadsOn
  split_ifs at leadsOn with long
  · cases found.symm.trans leadsOn
  · cases isChild : entries.lookup (Text.bytes name) with
    | none =>
        rw [isChild] at leadsOn
        cases found.symm.trans leadsOn
    | some child =>
        rw [isChild] at leadsOn
        exact ⟨(Text.bytes name), place, child, leadsOn, encloses⟩

section Root

variable (linkFree : tree.isLinkFree = true) (absolute : path.isAbsolute = true)
  (leads : LeadsInto tree path place)

include linkFree absolute leads

theorem finds_repositoryRoot? : Finds tree (directoryOf tree path) (repositoryRoot? tree path) := by
  obtain ⟨directoryAbsolute, _, entries, leadsOn⟩ := leads.exists_locate linkFree absolute
  exact (climbs_repositoryRoot? tree path).finds linkFree directoryAbsolute leadsOn

theorem not_holds_of_repositoryRoot? (isNone : repositoryRoot? tree path = none) {other : Place}
    (encloses : other <:+ place) : ¬HoldsRepository tree other := by
  obtain ⟨directoryAbsolute, _, entries, leadsOn⟩ := leads.exists_locate linkFree absolute
  have finds := finds_repositoryRoot? linkFree absolute leads
  rw [isNone] at finds
  rw [(FileTree.place_of_locate linkFree directoryAbsolute leadsOn).1] at encloses
  obtain ⟨front, isFront, rfl⟩ := exists_front_of_suffix encloses
  exact finds front isFront

/-- Where the path does not go up, the root leads to the innermost repository around its end. -/
theorem isInnermost_of_repositoryRoot? (noUp : .up ∉ path.components)
    (isRoot : repositoryRoot? tree path = some root) :
    root.isAbsolute = true ∧ ∃ there entries,
      tree.locate true root = .ok (.found there (.directory entries)) ∧
        IsInnermost tree place there := by
  obtain ⟨directoryAbsolute, liesUnder, entries, leadsOn⟩ := leads.exists_locate linkFree absolute
  have directoryNoUp : .up ∉ (directoryOf tree path).components :=
    fun isUp => noUp (liesUnder.mem isUp)
  have finds := finds_repositoryRoot? linkFree absolute leads
  have climbs := climbs_repositoryRoot? tree path
  rw [isRoot] at finds climbs
  obtain ⟨rootAbsolute, there, others, leadsRoot⟩ :=
    climbs.exists_locate directoryAbsolute leadsOn
  have isPlace := (FileTree.place_of_locate linkFree directoryAbsolute leadsOn).1
  have isThere := (FileTree.place_of_locate linkFree rootAbsolute leadsRoot).1
  have innermost := IsNearest.isInnermost finds directoryNoUp
  rw [← isPlace, ← isThere] at innermost
  exact ⟨rootAbsolute, there, others, leadsRoot, innermost⟩

/-- Where the path does not go up, the directory whose configuration is used is around its end. -/
theorem configuredAround_of_projectRoot [Glob.Compiler] {settings : Settings}
    (noUp : .up ∉ path.components)
    (loaded : settingsFor tree (projectRoot tree path) none = .ok settings) :
    ConfiguredAround tree settings place := by
  rw [projectRoot] at loaded
  cases isRoot : repositoryRoot? tree path with
  | none =>
      rw [isRoot] at loaded
      obtain ⟨directoryAbsolute, _, entries, leadsOn⟩ := leads.exists_locate linkFree absolute
      exact configuredAround_of_load linkFree directoryAbsolute leadsOn loaded
        (List.suffix_refl place)
  | some root =>
      rw [isRoot] at loaded
      obtain ⟨rootAbsolute, there, entries, leadsOn, innermost⟩ :=
        isInnermost_of_repositoryRoot? linkFree absolute leads noUp isRoot
      exact configuredAround_of_load linkFree rootAbsolute leadsOn loaded innermost.encloses

end Root

theorem settingsFor_of_analysisSettings [Glob.Compiler] {request : AnalysisRequest}
    {settings : Settings}
    (noConfig : request.config = none)
    (succeeds : analysisSettings tree request = .ok settings) :
    settingsFor tree (projectRoot tree (absolutePath tree request.path)) none = .ok settings := by
  simp only [analysisSettings, noConfig] at succeeds
  split_ifs at succeeds with isThere
  · exact succeeds
  · cases succeeds

/-- A validation is about a directory, which is where the search for its repository starts. -/
theorem settingsFor_of_validationSettings [Glob.Compiler] {request : ValidationRequest}
    {settings : Settings}
    (noConfig : request.config = none)
    (succeeds : validationSettings tree request = .ok settings) :
    settingsFor tree (projectRoot tree (absolutePath tree request.path)) none = .ok settings := by
  simp only [validationSettings, noConfig] at succeeds
  split_ifs at succeeds with isThere
  · have isStart : directoryOf tree (absolutePath tree request.path) =
        absolutePath tree request.path := by
      rw [FileTree.isDirectory] at isThere
      rw [directoryOf, FileTree.isFile]
      cases isEntry : tree.entry (absolutePath tree request.path) with
      | error error => rfl
      | ok entry =>
          rw [isEntry] at isThere
          cases entry with
          | directory entries => rfl
          | file text => cases isThere
          | link target => cases isThere
    rw [projectRoot, isStart]
    exact succeeds
  · cases succeeds

/-- **Where the root of a repository is found.** The search ends for every path. In a tree without
links, for a path that leads into a directory, it finds the nearest repository on the way, so it
finds one if any directory around has one. If the path does not go up, what it finds is the
innermost repository around the directory, it finds none exactly when there is none around, and a
task that names no configuration gets none but that of a directory around. -/
theorem repositoryRoot?_innermost [Glob.Compiler] (tree : FileTree) :
    (∀ path, Climbs tree (directoryOf tree path) (repositoryRoot? tree path)) ∧
    ∀ given path place, tree.isLinkFree = true → absolutePath tree given = path →
      LeadsInto tree path place →
      Finds tree (directoryOf tree path) (repositoryRoot? tree path) ∧
      (repositoryRoot? tree path = none → ∀ other, other <:+ place → ¬HoldsRepository tree other) ∧
      (.up ∉ path.components →
        ((∀ other, other <:+ place → ¬HoldsRepository tree other) →
          repositoryRoot? tree path = none) ∧
        (∀ root, repositoryRoot? tree path = some root →
          ∃ there entries, tree.locate true root = .ok (.found there (.directory entries)) ∧
            IsInnermost tree place there) ∧
        (∀ request settings, request.path = given → request.config = none →
          analysisSettings tree request = .ok settings → ConfiguredAround tree settings place) ∧
        (∀ request settings, request.path = given → request.config = none →
          validationSettings tree request = .ok settings →
            ConfiguredAround tree settings place)) := by
  refine ⟨climbs_repositoryRoot? tree, ?_⟩
  rintro given path place linkFree rfl leads
  have absolute := absolutePath_isAbsolute tree given
  refine ⟨finds_repositoryRoot? linkFree absolute leads, fun isNone other =>
    not_holds_of_repositoryRoot? linkFree absolute leads isNone, fun noUp => ⟨?_, ?_, ?_, ?_⟩⟩
  · intro noneHolds
    cases isRoot : repositoryRoot? tree (absolutePath tree given) with
    | none => rfl
    | some root =>
        obtain ⟨_, there, _, _, innermost⟩ :=
          isInnermost_of_repositoryRoot? linkFree absolute leads noUp isRoot
        exact absurd innermost.holds (noneHolds there innermost.encloses)
  · intro root isRoot
    exact (isInnermost_of_repositoryRoot? linkFree absolute leads noUp isRoot).2
  · rintro request settings rfl noConfig succeeds
    exact configuredAround_of_projectRoot linkFree absolute leads noUp
      (settingsFor_of_analysisSettings noConfig succeeds)
  · rintro request settings rfl noConfig succeeds
    exact configuredAround_of_projectRoot linkFree absolute leads noUp
      (settingsFor_of_validationSettings noConfig succeeds)

/-- A tree with a repository in the directory `/other`, which is the working directory, and with a
project beside it. -/
def asideTree : FileTree where
  root := .directory
    [(Text.bytes "other", .directory
      [(Text.bytes ".git", .directory []),
        (Text.bytes ".wizardrc.json", .file (some "\x7b\"exclude\": [\"**/*.js\"]\x7d")),
        (Text.bytes "lists", .directory [])]),
      (Text.bytes "proj", .directory
        [(Text.bytes "samples", .directory
          [(Text.bytes "a.js", .file (some "function f() {}\nf();\n"))])])]
  workingDirectory := [Text.bytes "other"]

/-- What is asked for by an analysis of a path with nothing else said. -/
def plainRequest (path : String) : AnalysisRequest :=
  ⟨.ofString path, .list, none, false, none, none⟩

/-- The root and the configuration of a directory in the repository. -/
theorem repositoryRoot?_innermost_lists :
    repositoryRoot? asideTree (.ofString "/other/lists") = some (.ofString "/other") ∧
      (∃ there entries, asideTree.locate true (.ofString "/other") =
          .ok (.found there (.directory entries)) ∧
        IsInnermost asideTree [Text.bytes "lists", Text.bytes "other"] there) ∧
      ∃ settings, analysisSettings asideTree (plainRequest "lists") = .ok settings ∧
        settings.configPath = some (.ofString "/other/.wizardrc.json") ∧
        ConfiguredAround asideTree settings [Text.bytes "lists", Text.bytes "other"] := by
  have isRoot : repositoryRoot? asideTree (.ofString "/other/lists") =
      some (.ofString "/other") := by
    decide +kernel
  have leads : LeadsInto asideTree (.ofString "/other/lists")
      [Text.bytes "lists", Text.bytes "other"] :=
    ⟨_, .directory [], rfl, rfl⟩
  obtain ⟨settings, loaded, isConfig⟩ :
      ∃ settings, analysisSettings asideTree (plainRequest "lists") = .ok settings ∧
        settings.configPath = some (.ofString "/other/.wizardrc.json") :=
    exists_ok (by decide +kernel)
  obtain ⟨_, _, ofPlain⟩ := (repositoryRoot?_innermost asideTree).2 (.ofString "lists")
    (.ofString "/other/lists") _ (by decide) (by decide) leads
  obtain ⟨_, ofRoot, ofAnalysis, _⟩ := ofPlain (by decide)
  exact ⟨isRoot, ofRoot _ isRoot, settings, loaded, isConfig,
    ofAnalysis (plainRequest "lists") settings rfl rfl loaded⟩

/-- From the repository, the project beside it is analysed with the configuration of the repository,
although no directory around the project has a repository. -/
theorem repositoryRoot?_aside :
    asideTree.isLinkFree = true ∧
    absolutePath asideTree (.ofString "../proj/samples") = .ofString "/other/../proj/samples" ∧
    LeadsInto asideTree (.ofString "/other/../proj/samples")
      [Text.bytes "samples", Text.bytes "proj"] ∧
    (∀ other, other <:+ [Text.bytes "samples", Text.bytes "proj"] →
      ¬HoldsRepository asideTree other) ∧
    repositoryRoot? asideTree (.ofString "/other/../proj/samples") = some (.ofString "/other") ∧
    ∃ settings, analysisSettings asideTree (plainRequest "../proj/samples") = .ok settings ∧
      ¬ConfiguredAround asideTree settings [Text.bytes "samples", Text.bytes "proj"] ∧
      Project.analyze asideTree (.ofString "/other/../proj/samples") .none (some settings) =
        .ok [] ∧
      ∃ methods, Project.analyze asideTree (.ofString "/other/../proj/samples") .none none =
        .ok methods ∧ methods.map (·.name) = ["f"] := by
  have noneHolds : ∀ other ∈ List.tails [Text.bytes "samples", Text.bytes "proj"],
      ¬HoldsRepository asideTree other := by decide +kernel
  obtain ⟨settings, loaded, isConfig, noMethods⟩ : ∃ settings,
      analysisSettings asideTree (plainRequest "../proj/samples") = .ok settings ∧
      settings.configPath = some (.ofString "/other/.wizardrc.json") ∧
      ((Project.analyze asideTree (.ofString "/other/../proj/samples") .none
        (some settings)).toOption.any fun methods => methods = []) = true :=
    exists_ok (by decide +kernel)
  obtain ⟨_, analyzed, rfl⟩ := exists_ok noMethods
  refine ⟨by decide, by decide, ⟨_, _, rfl, rfl⟩,
    fun other encloses => noneHolds other ((List.mem_tails _ _).mpr encloses), by decide +kernel,
    settings, loaded, fun around => ?_, analyzed, exists_ok (by decide +kernel)⟩
  obtain ⟨name, there, entry, leads, encloses⟩ := around _ isConfig
  obtain ⟨_, rfl⟩ : name = Text.bytes ".wizardrc.json" ∧ there = [Text.bytes "other"] := by
    have isFound : asideTree.locate true (.ofString "/other/.wizardrc.json") =
        .ok (.found [Text.bytes ".wizardrc.json", Text.bytes "other"]
          (.file (some "\x7b\"exclude\": [\"**/*.js\"]\x7d"))) := rfl
    rw [isFound] at leads
    cases leads
    exact ⟨rfl, rfl⟩
  exact absurd encloses (by decide)

end SampleMethods.CommandLine
