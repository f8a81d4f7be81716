import SampleMethods.Proofs.Method.Order
import SampleMethods.Proofs.Strategy.Statements
import SampleMethods.Source

/-!
# The paths of files in analyses

The path of a source file says which dialect the file is in. Apart from that it shows
only in the methods, which carry it: files of one dialect with the same text have the
same methods, each under its own path (`analyze_inFile`).
-/

set_option autoImplicit false

namespace SampleMethods

/-- The method as one of the file at a path. -/
def Method.inFile (path : String) (method : Method) : Method :=
  { method with sourcePath := path }

open Method (inFile)

theorem Invocation.extract_inFile (text : List Char) (path other : String)
    (statements : List Script.Node) :
    extract text other statements = (extract text path statements).map (inFile other) := by
  rw [extract, extract, List.map_map]
  rfl

theorem Layout.extract_inFile (layout : Layout) (text : List Char) (path other : String)
    (script : Script.Module) :
    layout.extract text other script = (layout.extract text path script).map (inFile other) := by
  rw [extract_eq, extract_eq]
  exact Invocation.extract_inFile text path other _

theorem Strategy.extractFirst_inFile (text : List Char) (path other : String)
    (script : Script.Module) (layouts : List Layout) :
    extractFirst text other script layouts =
      (extractFirst text path script layouts).map (inFile other) := by
  induction layouts with
  | nil => rfl
  | cons layout layouts ih =>
      rw [extractFirst, extractFirst, layout.extract_inFile text path other script]
      cases layout.extract text path script with
      | nil => exact ih
      | cons method methods => rfl

namespace Source

theorem methodsOf_inFile (options : Options) (text : List Char) (path other : String)
    (script : Script.Module) :
    methodsOf options text other script =
      (methodsOf options text path script).map (inFile other) := by
  have extracted : options.strategy.extract text other script =
      (options.strategy.extract text path script).map (inFile other) :=
    Strategy.extractFirst_inFile text path other script options.strategy.layouts
  have sameOrder : ∀ first second : Method, first.isAtMostInFile second =
      (first.inFile other).isAtMostInFile (second.inFile other) := fun _ _ => rfl
  simp only [methodsOf, extracted, List.isEmpty_map, ← Method.sortInFile_map _ sameOrder]
  refine congrArg Method.sortInFile ?_
  split_ifs
  · simp only [Region.attach, List.map_map]
    rfl
  · rfl

/-- **Files of one dialect with the same text have the same methods**, each under its own path. -/
theorem analyze_inFile {options : Options} {text : List Char} {path other : String}
    {methods : List Method} (sameDialect : dialectOf path = dialectOf other)
    (analyzed : analyze options text path = .ok methods) :
    analyze options text other = .ok (methods.map (inFile other)) := by
  rw [analyze, parse, sameDialect] at analyzed
  rw [analyze, parse]
  cases parsed : Script.Module.parse (dialectOf other) text with
  | error error =>
      simp only [parsed] at analyzed
      cases analyzed
  | ok script =>
      simp only [parsed] at analyzed
      cases analyzed
      exact congrArg Except.ok (methodsOf_inFile options text path other script)

end Source

end SampleMethods
