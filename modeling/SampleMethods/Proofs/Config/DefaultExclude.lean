import SampleMethods.Glob.Compiler
import SampleMethods.Proofs.Config.Patterns
import SampleMethods.Proofs.Glob.Matching
import SampleMethods.Proofs.Text.Bytes

/-!
# What is left out by default

A configuration that says nothing leaves out what lies under one of six directory names
and what has one of two marks in its path (`includes_default_iff`). A directory counts
wherever it stands in the path, but only as a whole step, and only if something stands
behind it; a mark counts anywhere, also in the name of a directory.
-/

set_option autoImplicit false

namespace SampleMethods

/-! ## Rows of characters in patterns -/

namespace Glob

open Text (Bytes encode encode_cons slash)

variable {token : Token} {tokens : List Token} {text : Bytes}

theorem standFor_cons :
    StandFor (token :: tokens) text ↔
      ∃ front back, front ++ back = text ∧ token.StandsFor front ∧ StandFor tokens back :=
  Iff.rfl

theorem standFor_singleton : StandFor [token] text ↔ token.StandsFor text := by
  simp [StandFor]

/-- Characters stand for their bytes. -/
theorem standFor_literals_append {mark : List Char} :
    StandFor (mark.map .literal ++ tokens) text ↔
      ∃ back, encode mark ++ back = text ∧ StandFor tokens back := by
  induction mark generalizing text with
  | nil => simp [encode]
  | cons character mark ih =>
      simp only [List.map_cons, List.cons_append, StandFor, Token.StandsFor, ih,
        encode_cons, List.append_assoc]
      constructor
      · rintro ⟨_, _, rfl, rfl, back, rfl, standFor⟩
        exact ⟨back, rfl, standFor⟩
      · rintro ⟨back, rfl, standFor⟩
        exact ⟨_, _, rfl, rfl, back, rfl, standFor⟩

/-- A pattern with another token than a point at its end is not looked up by a last name that ends
in one. -/
theorem wantsFinalPoint_concat (tokens : List Token) (notPoint : isLiteral '.' token = false) :
    wantsFinalPoint (tokens ++ [token]) = false := by
  simp [wantsFinalPoint, notPoint]

/-- A text stands behind the start or behind a slash, and before a slash. -/
theorem exists_goesBelow_iff {name : Bytes} :
    (∃ front back, front ++ back = text ∧ (front = [] ∨ [slash] <:+ front) ∧
        ∃ behind, name ++ behind = back ∧ [slash] <+: behind) ↔
      name ++ [slash] <+: text ∨ slash :: (name ++ [slash]) <:+: text := by
  constructor
  · rintro ⟨_, _, rfl, rfl | ⟨front, rfl⟩, _, rfl, behind, rfl⟩
    · exact .inl ⟨behind, by simp⟩
    · exact .inr ⟨front, behind, by simp⟩
  · rintro (⟨behind, rfl⟩ | ⟨front, behind, rfl⟩)
    · exact ⟨[], _, rfl, .inl rfl, slash :: behind, by simp, behind, rfl⟩
    · exact ⟨front ++ [slash], _, by simp, .inr ⟨front, rfl⟩, slash :: behind, rfl, behind, rfl⟩

end Glob

namespace Config

open Glob
open Text (IsPlain encode encode_cons_plain infix_bytes_iff prefix_bytes_iff slash)

/-! ## The two kinds of patterns -/

/-- The text goes on below a step that is the name: at its start, or behind a slash. -/
def GoesBelow (name text : List Char) : Prop :=
  name ++ ['/'] <+: text ∨ '/' :: (name ++ ['/']) <:+: text

variable {name mark : String} {path : Path}

/-- **A path matches the pattern of a name if it goes on below it.** -/
theorem isMatch_stepsPattern_iff (plain : IsPlain name.toList) :
    (stepsPattern name).isMatch path.toString = true ↔
      GoesBelow name.toList path.toString.toList := by
  have slashPlain : '/'.toNat < 128 := by decide
  have step : encode (name.toList ++ ['/']) = encode name.toList ++ [slash] :=
    List.flatMap_append
  have behindPlain : IsPlain (name.toList ++ ['/']) :=
    List.forall_mem_append.mpr ⟨plain, List.forall_mem_singleton.mpr slashPlain⟩
  have wholePlain : IsPlain ('/' :: (name.toList ++ ['/'])) :=
    List.forall_mem_cons.mpr ⟨slashPlain, behindPlain⟩
  have standFor : StandFor (stepsPattern name).tokens (encode path.toString.toList) ↔
      GoesBelow name.toList path.toString.toList := by
    rw [GoesBelow, ← prefix_bytes_iff behindPlain,
      ← infix_bytes_iff wholePlain (List.cons_ne_nil _ _), encode_cons_plain slashPlain, step]
    rw [stepsPattern, standFor_cons]
    simp only [standFor_literals_append, standFor_singleton, Token.StandsFor]
    exact exists_goesBelow_iff
  have noPoint : wantsFinalPoint (stepsPattern name).tokens = false :=
    wantsFinalPoint_concat (.leadingSteps :: name.toList.map .literal) rfl
  rw [isMatch_iff, standFor, noPoint]
  simp [stepsPattern]

/-- A path matches the pattern of a mark if the mark is anywhere in it. -/
theorem isMatch_markPattern_iff (plain : IsPlain mark.toList) (nonempty : mark.toList ≠ []) :
    (markPattern mark).isMatch path.toString = true ↔ mark.toList <:+: path.toString.toList := by
  have standFor : StandFor (markPattern mark).tokens (encode path.toString.toList) ↔
      mark.toList <:+: path.toString.toList := by
    rw [← infix_bytes_iff plain nonempty]
    rw [markPattern, standFor_cons]
    constructor
    · rintro ⟨steps, _, isText, -, front, _, rfl, -, standFor⟩
      obtain ⟨behind, rfl, -⟩ := standFor_literals_append.mp standFor
      exact ⟨steps ++ front, behind, by rw [← isText]; simp⟩
    · rintro ⟨front, behind, isText⟩
      refine ⟨[], _, isText, .inl rfl, front, _, (List.append_assoc ..).symm, trivial, ?_⟩
      exact standFor_literals_append.mpr ⟨behind, rfl, standFor_singleton.mpr trivial⟩
  have noPoint : wantsFinalPoint (markPattern mark).tokens = false :=
    wantsFinalPoint_concat (.leadingSteps :: .many :: mark.toList.map .literal) rfl
  rw [isMatch_iff, standFor, noPoint]
  simp [markPattern]

/-! ## The default patterns -/

/-- The names of the directories that are left out by default. -/
def setAsideNames : List String :=
  ["test", "tests", "__tests__", "node_modules", "dist", "build"]

/-- The marks of the paths that are left out by default. -/
def setAsideMarks : List String :=
  [".test.", ".spec."]

theorem isPlain_of_mem_setAside :
    (∀ name ∈ setAsideNames, IsPlain name.toList) ∧
      ∀ mark ∈ setAsideMarks, IsPlain mark.toList ∧ mark.toList ≠ [] := by
  decide

/-- The patterns that stand in for missing ones are those of the names and those of the marks. -/
theorem exists_default_iff {globs : List Glob}
    (areDefault : patterns "exclude" defaultExclude = .ok globs) (property : Glob → Prop) :
    (∃ glob ∈ globs, property glob) ↔
      (∃ name ∈ setAsideNames, property (stepsPattern name)) ∨
        ∃ mark ∈ setAsideMarks, property (markPattern mark) := by
  cases patterns_defaultExclude.symm.trans areDefault
  simp only [setAsideNames, setAsideMarks, List.exists_mem_cons_iff, List.not_mem_nil, false_and,
    exists_false, or_false]
  tauto

/-- **What is left out by default** is what goes on below one of the names, and what has one of the
marks anywhere in it, as the path is shown. All other paths are included. -/
theorem includes_default_iff [Glob.Compiler] :
    ∃ settings, empty.resolve = .ok settings ∧
      ∀ path, settings.includes path = false ↔
        (∃ name ∈ setAsideNames, GoesBelow name.toList path.toString.toList) ∨
          ∃ mark ∈ setAsideMarks, mark.toList <:+: path.toString.toList := by
  obtain ⟨namesPlain, marksPlain⟩ := isPlain_of_mem_setAside
  obtain ⟨globs, areDefault⟩ : ∃ globs, patterns "exclude" defaultExclude = .ok globs :=
    ⟨_, patterns_defaultExclude⟩
  have resolved : empty.resolve = .ok ⟨none, globs, .auto, true, none⟩ := by
    have compiled : Glob.compile globs = .ok globs := by
      rw [Glob.compile, Glob.Compiler.accepts_default globs areDefault]
    have noPatterns (role : String) : patterns role [] = .ok [] := rfl
    rw [resolve, areDefault, empty, noPatterns, noPatterns]
    simp only [bind, Except.bind, Glob.compile?, List.isEmpty_nil, if_true, compiled]
    rfl
  refine ⟨_, resolved, fun path => ?_⟩
  have left : Settings.includes ⟨none, globs, .auto, true, none⟩ path = false ↔
      ∃ glob ∈ globs, glob.isMatch path.toString = true := by
    simp [Settings.includes]
  rw [left, exists_default_iff areDefault]
  refine or_congr (exists_congr fun name => and_congr_right fun isName => ?_)
    (exists_congr fun mark => and_congr_right fun isMark => ?_)
  · exact isMatch_stepsPattern_iff (namesPlain name isName)
  · exact isMatch_markPattern_iff (marksPlain mark isMark).1 (marksPlain mark isMark).2

/-- A longer name, a name with nothing below it and a mark without its second point are included. -/
example :
    (empty.resolve.toOption.map fun settings =>
      ["latest/a.js", "a/test", "a.test/b.spec"].map fun path =>
        settings.includes (.ofString path)) = some [true, true, true] := by
  decide +kernel

end Config

end SampleMethods
