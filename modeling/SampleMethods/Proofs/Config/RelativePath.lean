import SampleMethods.Config
import SampleMethods.Proofs.Path.Below
import SampleMethods.Proofs.Path.Spelling

/-!
# Paths as the patterns see them

The patterns of a configuration see a file from the directory of the configuration
on if the path of the file goes through the path of that directory. Then the analysed
directory does not matter (`relativePath_of_liesUnder`). Otherwise they see it from the
analysed directory on. Either way they see the same below two spellings of the analysed
directory that are alike behind the directory of the configuration
(`SeesAlike.relativePath_below`).

What they see is what the chosen directory leaves of the path, and with the directory in
front of it, it names the file again (`relativePath_leftBehind`).
-/

set_option autoImplicit false

namespace SampleMethods.Settings

variable {settings : Settings} {directory file : Path}

theorem configDirectory?_eq_some_iff :
    settings.configDirectory? = some directory ↔
      ∃ config, settings.configPath = some config ∧ config.parent? = some directory ∧
        directory.text ≠ [] := by
  constructor
  · intro isDirectory
    obtain ⟨config, isConfig, isDirectory⟩ := Option.bind_eq_some_iff.mp isDirectory
    obtain ⟨parent, isParent, isDirectory⟩ := Option.bind_eq_some_iff.mp isDirectory
    rw [Option.ite_none_left_eq_some, Option.some_inj] at isDirectory
    obtain ⟨nonempty, rfl⟩ := isDirectory
    exact ⟨config, isConfig, isParent, by simpa using nonempty⟩
  · rintro ⟨config, isConfig, isParent, nonempty⟩
    simp [configDirectory?, isConfig, isParent, nonempty]

theorem relativePath_of_configDirectory (isDirectory : settings.configDirectory? = some directory)
    (liesUnder : file.LiesUnder directory) (root : Path) :
    file.stripPrefix? directory = some (settings.relativePath file root) := by
  obtain ⟨left, isLeft⟩ := Option.isSome_iff_exists.mp (Path.stripPrefix?_isSome_iff.mpr liesUnder)
  simp [relativePath, isDirectory, isLeft]

theorem relativePath_of_liesUnder (isDirectory : settings.configDirectory? = some directory)
    (liesUnder : file.LiesUnder directory) (root other : Path) :
    settings.relativePath file root = settings.relativePath file other := by
  have fromRoot := relativePath_of_configDirectory isDirectory liesUnder root
  have fromOther := relativePath_of_configDirectory isDirectory liesUnder other
  exact Option.some.inj (fromRoot.symm.trans fromOther)

/-- A file that does not lie under the directory of the configuration is seen from the analysed
directory on, if it lies under that one. -/
theorem relativePath_of_not_liesUnder
    (notUnder : ∀ directory, settings.configDirectory? = some directory →
      ¬file.LiesUnder directory) (root : Path) :
    settings.relativePath file root = (file.stripPrefix? root).getD file := by
  cases isDirectory : settings.configDirectory? with
  | none => simp [relativePath, isDirectory]
  | some directory =>
      have isNone := Path.stripPrefix?_eq_none_iff.mpr (notUnder directory isDirectory)
      simp [relativePath, isDirectory, isNone]

/-- The two paths are spelled alike behind the directory of the configuration, if there is one. -/
def SeesAlike (settings : Settings) (first second : Path) : Prop :=
  ∀ directory, settings.configDirectory? = some directory → Path.SpelledAlike directory first second

/-- **The patterns see the same below two directories that are spelled alike.** -/
theorem SeesAlike.relativePath_below {first second : Path} {names : List Text.Bytes}
    (alike : settings.SeesAlike first second) (firstNonempty : first.text ≠ [])
    (secondNonempty : second.text ≠ []) (nonempty : names ≠ [])
    (areNames : ∀ name ∈ names, FileTree.isName name = true) :
    settings.relativePath (first.below names) first =
      settings.relativePath (second.below names) second := by
  have firstComponents := Path.components_ne_nil firstNonempty
  have fromFirst := Path.stripPrefix?_below_self firstComponents nonempty areNames
  have fromSecond :=
    Path.stripPrefix?_below_self (Path.components_ne_nil secondNonempty) nonempty areNames
  rw [relativePath, relativePath, fromFirst, fromSecond]
  cases isDirectory : settings.configDirectory? with
  | none => rfl
  | some directory =>
      obtain ⟨_, _, _, directoryNonempty⟩ := configDirectory?_eq_some_iff.mp isDirectory
      have same := (alike directory isDirectory).stripPrefix?_below
        (Path.components_ne_nil directoryNonempty) firstComponents nonempty areNames
      simp only [Option.bind_eq_bind, Option.bind_some, same]
      cases (second.below names).stripPrefix? directory with
      | none => rfl
      | some left => rfl

/-! ## What the patterns see of a file -/

/-- The directory is the one that the configuration was found in, and it is not the empty path. -/
def IsConfigDirectory (settings : Settings) (directory : Path) : Prop :=
  ∃ config, settings.configPath = some config ∧ config.parent? = some directory ∧
    directory.text ≠ []

/-- A directory whose name begins like that of the directory of the configuration is not that
directory. -/
theorem not_liesUnder_of_isConfigDirectory (isDirectory : settings.IsConfigDirectory directory)
    (notRoot : directory.text ≠ [Text.slash]) {byte : UInt8} (noSlash : byte ≠ Text.slash)
    {rest : Text.Bytes} (isText : file.text = directory.text ++ byte :: rest) :
    ¬file.LiesUnder directory := by
  obtain ⟨config, _, isParent, hasText⟩ := isDirectory
  obtain ⟨front, last, isSteps, counts⟩ :=
    Path.exists_lastStep_of_parent? isParent hasText notRoot
  exact Path.not_liesUnder_of_longerName isSteps counts noSlash isText

/-- **The patterns see what the first directory that a file lies under leaves of its path.** If the
file lies under the directory of the configuration, it is that directory, and the analysed one does
not matter; otherwise it is the analysed directory if the file lies under that one, and otherwise
they see the path as it is. Put behind the directory, what they see names the file again. A file lies
under a directory when its path is another spelling of the path of the directory with more behind
it, and behind a slash; two spellings of a path differ in repeated slashes, a slash at the end and
steps `.` behind slashes. So a file never lies under the directory of the configuration because a
directory on its way has a name that begins like the name of that one. -/
theorem relativePath_leftBehind (settings : Settings) (file root : Path) :
    (∀ directory, settings.IsConfigDirectory directory → file.LiesUnder directory →
      file.IsLeftBehind directory (settings.relativePath file root) ∧
      ∀ other, settings.relativePath file other = settings.relativePath file root) ∧
    ((∀ directory, settings.IsConfigDirectory directory → ¬file.LiesUnder directory) →
      (file.LiesUnder root → file.IsLeftBehind root (settings.relativePath file root)) ∧
      (¬file.LiesUnder root → settings.relativePath file root = file)) ∧
    (∀ base, file.LiesUnder base ↔ ∃ rest, file.IsRespelling ⟨base.stem ++ rest⟩) ∧
    (∀ other : Path, other.components = file.components ↔ other.IsRespelling file) ∧
    ∀ directory, settings.IsConfigDirectory directory → directory.text ≠ [Text.slash] →
      ∀ byte rest, byte ≠ Text.slash → file.text = directory.text ++ byte :: rest →
        ¬file.LiesUnder directory := by
  refine ⟨?_, ?_, fun base => Path.liesUnder_iff_exists_rest,
    fun other => Path.components_eq_iff_isRespelling, ?_⟩
  · intro directory isDirectory liesUnder
    have isChosen := configDirectory?_eq_some_iff.mpr isDirectory
    exact ⟨Path.isLeftBehind_of_stripPrefix?
      (relativePath_of_configDirectory isChosen liesUnder root),
      fun other => relativePath_of_liesUnder isChosen liesUnder other root⟩
  · intro notUnder
    have fromRoot : settings.relativePath file root = (file.stripPrefix? root).getD file :=
      relativePath_of_not_liesUnder
        (fun directory isChosen =>
          notUnder directory (configDirectory?_eq_some_iff.mp isChosen)) root
    constructor
    · intro liesUnder
      obtain ⟨left, isLeft⟩ :=
        Option.isSome_iff_exists.mp (Path.stripPrefix?_isSome_iff.mpr liesUnder)
      rw [fromRoot, isLeft]
      exact Path.isLeftBehind_of_stripPrefix? isLeft
    · intro notUnderRoot
      rw [fromRoot, Path.stripPrefix?_eq_none_iff.mpr notUnderRoot]
      rfl
  · intro directory isDirectory notRoot byte rest noSlash isText
    exact not_liesUnder_of_isConfigDirectory isDirectory notRoot noSlash isText

/-- Settings from a file of the directory `/repo`. -/
def repoSettings : Settings where
  included := none
  excluded := []
  strategy := .auto
  regionTags := true
  configPath := some (.ofString "/repo//.wizardrc.json")

theorem isConfigDirectory_repoSettings_iff :
    repoSettings.IsConfigDirectory directory ↔ directory = .ofString "/repo" := by
  constructor
  · rintro ⟨config, isConfig, isParent, _⟩
    cases isConfig
    exact Option.some.inj (isParent.symm.trans (by decide))
  · rintro rfl
    exact ⟨_, rfl, by decide, by decide⟩

/-- A file of the directory is seen from there, whatever is analysed. One of `/repository` is seen
from the analysed directory on, or as it is. -/
theorem relativePath_leftBehind_repository :
    (let file := Path.ofString "/repo/./samples//a.js"
     repoSettings.IsConfigDirectory (.ofString "/repo") ∧
      repoSettings.relativePath file (.ofString "/repo/samples") = .ofString "samples//a.js" ∧
      file.IsLeftBehind (.ofString "/repo") (.ofString "samples//a.js")) ∧
    let beside := Path.ofString "/repository/samples/a.js"
    (∀ directory, repoSettings.IsConfigDirectory directory → ¬beside.LiesUnder directory) ∧
      repoSettings.relativePath beside (.ofString "//repository/") = .ofString "samples/a.js" ∧
      beside.IsLeftBehind (.ofString "//repository/") (.ofString "samples/a.js") ∧
      repoSettings.relativePath beside (.ofString "samples") = beside := by
  have isDirectory := isConfigDirectory_repoSettings_iff.mpr rfl
  have seen : repoSettings.relativePath (.ofString "/repo/./samples//a.js")
      (.ofString "/repo/samples") = .ofString "samples//a.js" := by decide
  have seenBeside : repoSettings.relativePath (.ofString "/repository/samples/a.js")
      (.ofString "//repository/") = .ofString "samples/a.js" := by decide
  have notUnder : ∀ directory, repoSettings.IsConfigDirectory directory →
      ¬(Path.ofString "/repository/samples/a.js").LiesUnder directory := by
    intro directory isDirectory
    have isRepo := isConfigDirectory_repoSettings_iff.mp isDirectory
    exact (relativePath_leftBehind repoSettings (.ofString "/repository/samples/a.js")
      (.ofString "//repository/")).2.2.2.2 directory isDirectory (by rw [isRepo]; decide) 115
      (Text.bytes "itory/samples/a.js") (by decide) (by rw [isRepo]; decide)
  refine ⟨⟨isDirectory, seen, ?_⟩, notUnder, seenBeside, ?_, ?_⟩
  · rw [← seen]
    exact ((relativePath_leftBehind repoSettings _ _).1 _ isDirectory (by decide)).1
  · rw [← seenBeside]
    exact ((relativePath_leftBehind repoSettings _ _).2.1 notUnder).1 (by decide)
  · exact ((relativePath_leftBehind repoSettings _ _).2.1 notUnder).2 (by decide)

end SampleMethods.Settings
