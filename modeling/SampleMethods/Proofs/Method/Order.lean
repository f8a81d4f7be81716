import Mathlib.Data.Prod.Lex
import Mathlib.Data.String.Basic
import SampleMethods.Method
import SampleMethods.Proofs.Sorting

/-!
# The order of methods

The methods of all files are sorted by file, line and name, and those of one file
by line and name. Both tests compare keys, so methods with different keys stand in
strict order after a sort, whatever order they came in.
-/

set_option autoImplicit false

namespace SampleMethods.Method

/-- What the methods of a file are sorted by. -/
def keyInFile (method : Method) : ℕ ×ₗ String :=
  toLex (method.startLine.toNat, method.name)

/-- What methods are sorted by. -/
def key (method : Method) : String ×ₗ ℕ ×ₗ String :=
  toLex (method.sourcePath, method.keyInFile)

theorem isAtMostInFile_comparesBy : ComparesBy keyInFile isAtMostInFile := by
  intro first second
  have sameLine : first.startLine = second.startLine ↔
      first.startLine.toNat = second.startLine.toNat := by
    cases first.startLine
    cases second.startLine
    simp
  rw [isAtMostInFile, keyInFile, keyInFile, Prod.Lex.toLex_le_toLex]
  simp only [sameLine]
  split_ifs with same
  · simp only [same, lt_irrefl, false_or, true_and, Bool.not_eq_true', decide_eq_false_iff_not,
      not_lt]
  · simp only [same, false_and, or_false, LineNumber.isAtMost, decide_eq_true_eq]
    exact ⟨fun below => lt_of_le_of_ne below same, le_of_lt⟩

/-- What does not change the order of methods can be done to them before or after the sort. -/
theorem sortInFile_map {change : Method → Method} (methods : List Method)
    (sameOrder : ∀ first second, first.isAtMostInFile second =
      (change first).isAtMostInFile (change second)) :
    sortInFile (methods.map change) = (sortInFile methods).map change :=
  (List.map_mergeSort fun first _ second _ => sameOrder first second).symm

/-- Two methods change places unless they are in order. -/
theorem sortInFile_pair (first second : Method) :
    sortInFile [first, second] =
      if first.isAtMostInFile second then [first, second] else [second, first] := by
  simp [sortInFile, List.mergeSort, List.cons_merge_cons]

theorem isAtMost_comparesBy : ComparesBy key isAtMost := by
  intro first second
  rw [isAtMost, key, key, Prod.Lex.toLex_le_toLex]
  split_ifs with same
  · simp only [same, lt_irrefl, false_or, true_and]
    exact isAtMostInFile_comparesBy first second
  · simp only [same, false_and, or_false, decide_eq_true_eq]

end SampleMethods.Method
