import Mathlib.Tactic.SplitIfs
import SampleMethods.Config
import SampleMethods.Proofs.Failure

/-!
# Configurations with patterns that can be read

A configuration comes down to settings just if each of its patterns can be read and they can
be put together to sets (`exists_resolve_iff`). Validation finds out the first of these
beforehand, and not the second one (`validate_eq_ok_iff`). The patterns that stand in for
missing ones can always be read (`patterns_defaultExclude`) and put together.
-/

set_option autoImplicit false

namespace SampleMethods.Config

/-- Each pattern of the configuration can be read. -/
def HasPatterns (config : Config) : Prop :=
  ∀ text ∈ config.included ++ config.excluded, ∃ glob, Glob.parse text = .ok glob

/-- The patterns of the configuration can be put together to sets. -/
structure Compiles [Glob.Compiler] (config : Config) : Prop where
  included : config.included ≠ [] → ∀ globs, patterns "include" config.included = .ok globs →
    Glob.Compiler.refusal? globs = none
  excluded : config.excluded ≠ [] → ∀ globs, patterns "exclude" config.excluded = .ok globs →
    Glob.Compiler.refusal? globs = none

variable {config : Config}

/-- The pattern that leaves out what is under a name. -/
def stepsPattern (name : String) : Glob :=
  ⟨"**/" ++ name ++ "/**",
    .leadingSteps :: (name.toList.map Glob.Token.literal ++ [.trailingSteps])⟩

/-- The pattern that leaves out what has a mark in its path. -/
def markPattern (mark : String) : Glob :=
  ⟨"**/*" ++ mark ++ "*",
    .leadingSteps :: .many :: (mark.toList.map Glob.Token.literal ++ [.many])⟩

/-- **The patterns that stand in for missing ones can be read.** -/
theorem patterns_defaultExclude :
    patterns "exclude" defaultExclude =
      .ok [stepsPattern "test", stepsPattern "tests", stepsPattern "__tests__",
        markPattern ".test.", markPattern ".spec.", stepsPattern "node_modules",
        stepsPattern "dist", stepsPattern "build"] :=
  rfl

theorem patterns_eq_ok_iff {role : String} {texts : List String} {globs : List Glob} :
    patterns role texts = .ok globs ↔
      List.Forall₂ (fun text glob => Glob.parse text = .ok glob) texts globs := by
  simp only [patterns, mapM_eq_ok_iff, Failure.during_eq_ok_iff, mapError_eq_ok_iff]

theorem exists_patterns_iff {role : String} {texts : List String} :
    (∃ globs, patterns role texts = .ok globs) ↔
      ∀ text ∈ texts, ∃ glob, Glob.parse text = .ok glob := by
  simp only [patterns_eq_ok_iff]
  induction texts with
  | nil => simp
  | cons text texts ih =>
      rw [List.forall_mem_cons, ← ih]
      constructor
      · rintro ⟨_, both⟩
        cases both with
        | cons isFirst areOthers => exact ⟨⟨_, isFirst⟩, _, areOthers⟩
      · rintro ⟨⟨glob, isFirst⟩, globs, areOthers⟩
        exact ⟨glob :: globs, .cons isFirst areOthers⟩

theorem hasPatterns_iff :
    config.HasPatterns ↔
      (∃ globs, patterns "include" config.included = .ok globs) ∧
        ∃ globs, patterns "exclude" config.excluded = .ok globs := by
  rw [HasPatterns, List.forall_mem_append, exists_patterns_iff, exists_patterns_iff]

/-- **Validation succeeds just if every pattern can be read.** -/
theorem validate_eq_ok_iff : config.validate = .ok () ↔ config.HasPatterns := by
  rw [hasPatterns_iff]
  constructor
  · intro valid
    rw [validate] at valid
    cases isIncluded : patterns "include" config.included with
    | error failure =>
        rw [isIncluded] at valid
        cases valid
    | ok included =>
        cases isExcluded : patterns "exclude" config.excluded with
        | error failure =>
            rw [isIncluded, isExcluded] at valid
            cases valid
        | ok excluded => exact ⟨⟨included, rfl⟩, excluded, rfl⟩
  · rintro ⟨⟨included, isIncluded⟩, excluded, isExcluded⟩
    rw [validate, isIncluded, isExcluded]
    rfl

theorem isEmpty_of_patterns {role : String} {texts : List String} {globs : List Glob}
    (isPatterns : patterns role texts = .ok globs) : globs.isEmpty = texts.isEmpty := by
  cases patterns_eq_ok_iff.mp isPatterns <;> rfl

section Compile

variable [Glob.Compiler] {globs : List Glob}

theorem exists_compile_iff :
    (∃ compiled, Glob.compile globs = .ok compiled) ↔ Glob.Compiler.refusal? globs = none := by
  rw [Glob.compile]
  cases Glob.Compiler.refusal? globs with
  | none => exact iff_of_true ⟨globs, rfl⟩ rfl
  | some reason => simp

theorem exists_compile?_iff :
    (∃ compiled, Glob.compile? globs = .ok compiled) ↔
      (globs.isEmpty = false → Glob.Compiler.refusal? globs = none) := by
  rw [Glob.compile?, ← exists_compile_iff]
  cases globs.isEmpty with
  | true => simp
  | false => simp [map_eq_ok_iff]

/-- A configuration comes down to settings in four steps: its patterns are read in two rows, and
each row is put together, with the patterns that stand in for missing ones. -/
theorem exists_resolve_iff_steps :
    (∃ settings, config.resolve = .ok settings) ↔
      ∃ included excluded defaults, patterns "include" config.included = .ok included ∧
        patterns "exclude" config.excluded = .ok excluded ∧
        patterns "exclude" defaultExclude = .ok defaults ∧
        (∃ compiled, Glob.compile? included = .ok compiled) ∧
        ∃ compiled, Glob.compile (if excluded.isEmpty then defaults else excluded) =
          .ok compiled := by
  simp only [resolve, bind_eq_ok_iff]
  constructor
  · rintro ⟨settings, included, isIncluded, excluded, isExcluded, defaults, areDefaults,
      includedSet, isIncludedSet, excludedSet, isExcludedSet, _⟩
    exact ⟨included, excluded, defaults, isIncluded, isExcluded, areDefaults,
      ⟨includedSet, isIncludedSet⟩, excludedSet, isExcludedSet⟩
  · rintro ⟨included, excluded, defaults, isIncluded, isExcluded, areDefaults,
      ⟨includedSet, isIncludedSet⟩, excludedSet, isExcludedSet⟩
    exact ⟨_, included, isIncluded, excluded, isExcluded, defaults, areDefaults, includedSet,
      isIncludedSet, excludedSet, isExcludedSet, rfl⟩

/-- **A configuration comes down to settings just if every pattern can be read and the patterns can
be put together.** -/
theorem exists_resolve_iff :
    (∃ settings, config.resolve = .ok settings) ↔ config.HasPatterns ∧ config.Compiles := by
  rw [hasPatterns_iff, exists_resolve_iff_steps]
  constructor
  · rintro ⟨included, excluded, defaults, isIncluded, isExcluded, _, includedSet, excludedSet⟩
    refine ⟨⟨⟨included, isIncluded⟩, excluded, isExcluded⟩, fun some globs same => ?_,
      fun some globs same => ?_⟩
    · cases isIncluded.symm.trans same
      exact exists_compile?_iff.mp includedSet
        (by rw [isEmpty_of_patterns isIncluded]; simpa using some)
    · cases isExcluded.symm.trans same
      rw [isEmpty_of_patterns isExcluded, if_neg (by simpa using some)] at excludedSet
      exact exists_compile_iff.mp excludedSet
  · rintro ⟨⟨⟨included, isIncluded⟩, excluded, isExcluded⟩, compiles⟩
    refine ⟨included, excluded, _, isIncluded, isExcluded, patterns_defaultExclude,
      exists_compile?_iff.mpr fun some => ?_, exists_compile_iff.mpr ?_⟩
    · rw [isEmpty_of_patterns isIncluded] at some
      exact compiles.included (by simpa using some) included isIncluded
    · split_ifs with isEmpty
      · exact Glob.Compiler.accepts_default _ patterns_defaultExclude
      · rw [isEmpty_of_patterns isExcluded] at isEmpty
        exact compiles.excluded (by simpa using isEmpty) excluded isExcluded

theorem globSet_of_compile {failure : Failure} (fails : Glob.compile globs = .error failure) :
    ∃ reason, failure = .of (.globSet reason) := by
  rw [Glob.compile] at fails
  cases refused : Glob.Compiler.refusal? globs with
  | none =>
      rw [refused] at fails
      cases fails
  | some reason =>
      rw [refused] at fails
      cases fails
      exact ⟨reason, rfl⟩

theorem globSet_of_compile? {failure : Failure} (fails : Glob.compile? globs = .error failure) :
    ∃ reason, failure = .of (.globSet reason) := by
  rw [Glob.compile?] at fails
  split_ifs at fails
  cases refused : Glob.compile globs with
  | ok compiled =>
      rw [refused] at fails
      cases fails
  | error inner =>
      rw [refused] at fails
      cases fails
      exact globSet_of_compile refused

/-- Patterns that can be read fail only where they are put together. -/
theorem globSet_of_resolve {failure : Failure} (hasPatterns : config.HasPatterns)
    (fails : config.resolve = .error failure) : ∃ reason, failure = .of (.globSet reason) := by
  obtain ⟨⟨included, isIncluded⟩, excluded, isExcluded⟩ := hasPatterns_iff.mp hasPatterns
  rw [resolve, isIncluded, isExcluded, patterns_defaultExclude] at fails
  simp only [bind, Except.bind] at fails
  rcases cases_of_bind_error fails with refused | ⟨_, _, fails⟩
  · exact globSet_of_compile? refused
  rcases cases_of_bind_error fails with refused | ⟨_, _, done⟩
  · exact globSet_of_compile refused
  · cases done

end Compile

end SampleMethods.Config
