import Mathlib.Tactic.SplitIfs
import SampleMethods.Config.Discovery
import SampleMethods.Proofs.Failure

/-!
# Where found configurations are

A configuration that is found, and not named by the user, is in the directory where it
was looked for, under one of the names that such files have (`exists_name_of_load`).
-/

set_option autoImplicit false

namespace SampleMethods

variable {tree : FileTree} {root file : Path}

/-- A file is read for a step if it can be read. -/
theorem FileTree.readTextFor_eq_ok_iff {step text : String} :
    tree.readTextFor step file = .ok text ↔ tree.readText file = .ok text := by
  rw [readTextFor]
  constructor
  · intro succeeds
    cases read : tree.readText file with
    | ok found =>
        rw [read] at succeeds
        cases succeeds
        rfl
    | error error =>
        rw [read] at succeeds
        cases succeeds
  · intro read
    rw [read]
    rfl

namespace Config

/-- The names of all files that may hold a configuration. -/
def candidates : List String :=
  fileNames ++ [packageName]

theorem configPath_of_resolve [Glob.Compiler] {config : Config} {settings : Settings}
    (resolved : config.resolve = .ok settings) : settings.configPath = none := by
  obtain ⟨included, _, resolved⟩ := exists_of_bind resolved
  obtain ⟨excluded, _, resolved⟩ := exists_of_bind resolved
  obtain ⟨defaults, _, resolved⟩ := exists_of_bind resolved
  obtain ⟨includedSet, _, resolved⟩ := exists_of_bind resolved
  obtain ⟨excludedSet, _, resolved⟩ := exists_of_bind resolved
  cases resolved
  rfl

/-- **A configuration that is discovered is in a file of the directory.** -/
theorem exists_name_of_discover? {config : Config}
    (discovered : discover? tree root = .ok (some (config, file))) :
    ∃ name ∈ candidates, file = root.child (Text.bytes name) ∧ tree.hasEntry file = true := by
  simp only [discover?] at discovered
  cases isFound : (fileNames.map fun name => root.child (Text.bytes name)).find? tree.hasEntry with
  | some path =>
      have isThere : tree.hasEntry path = true := List.find?_some isFound
      obtain ⟨name, isName, rfl⟩ := List.mem_map.mp (List.mem_of_find?_eq_some isFound)
      rw [isFound] at discovered
      obtain ⟨written, _, same⟩ := exists_of_bind discovered
      cases same
      exact ⟨name, List.mem_append_left _ isName, rfl, isThere⟩
  | none =>
      simp only [isFound] at discovered
      split_ifs at discovered with isThere
      · obtain ⟨written, _, same⟩ := exists_of_bind discovered
        cases written with
        | none => cases same
        | some config =>
            cases same
            exact ⟨packageName, by simp [candidates], rfl, isThere⟩
      · cases discovered

end Config

/-- **Settings that no file was named for come from a file of the directory**, if they come from a
file at all. -/
theorem Settings.exists_name_of_load [Glob.Compiler] {settings : Settings}
    (loaded : Settings.load tree root none = .ok settings)
    (isConfig : settings.configPath = some file) :
    ∃ name ∈ Config.candidates,
      file = root.child (Text.bytes name) ∧ tree.hasEntry file = true := by
  obtain ⟨found, discovered, loaded⟩ := exists_of_bind loaded
  cases found with
  | none => cases (Config.configPath_of_resolve loaded).symm.trans isConfig
  | some written =>
      obtain ⟨config, path⟩ := written
      obtain ⟨plain, _, same⟩ := exists_of_bind loaded
      cases same
      cases isConfig
      exact Config.exists_name_of_discover? discovered

end SampleMethods
