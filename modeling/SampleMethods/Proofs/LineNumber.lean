import Mathlib.Algebra.Group.Nat.Defs
import Mathlib.Order.Lattice
import SampleMethods.LineNumber
import SampleMethods.Proofs.Text.Position

/-!
# The order of line numbers

Line numbers are compared as the numbers that they are. A line too far down to be
counted has the greatest one (`toNat_ofNat_eq_min`), so a position further on is never
on a line with a lower number (`ofPosition_le`), and where all lines can be counted
the lines that a line feed parts are told apart (`ofPosition_lt`).
-/

set_option autoImplicit false

namespace SampleMethods.LineNumber

theorem toNat_injective {first second : LineNumber} (same : first.toNat = second.toNat) :
    first = second := by
  cases first
  cases second
  simpa using same

theorem toNat_ofNat {number : ℕ} (fits : number < 2 ^ 32) : (ofNat number).toNat = number := by
  have below : number < Nat.pow 2 32 := fits
  rw [ofNat, dif_pos below]

theorem ofNat_toNat (line : LineNumber) : ofNat line.toNat = line :=
  toNat_injective (toNat_ofNat line.fits)

theorem toNat_ofNat_eq_min (number : ℕ) : (ofNat number).toNat = min number (2 ^ 32 - 1) := by
  rcases Nat.lt_or_ge number (2 ^ 32) with fits | beyond
  · rw [toNat_ofNat fits]
    omega
  · have notBelow : ¬number < Nat.pow 2 32 := Nat.not_lt.mpr beyond
    have atGreatest : 2 ^ 32 - 1 ≤ number := by omega
    rw [ofNat, dif_neg notBelow, Nat.min_eq_right atGreatest]
    rfl

theorem isAtMost_iff {first second : LineNumber} :
    first.isAtMost second = true ↔ first.toNat ≤ second.toNat := by
  rw [isAtMost, decide_eq_true_eq]

/-- The lower one of two lines has the greater number. -/
theorem toNat_lower (first second : LineNumber) :
    (first.lower second).toNat = max first.toNat second.toNat := by
  rw [lower]
  split_ifs with below
  · exact (max_eq_right (isAtMost_iff.mp below)).symm
  · exact (max_eq_left (Nat.le_of_not_le fun above => below (isAtMost_iff.mpr above))).symm

/-! ## Positions -/

section Positions

variable {text : List Char} {first second : ℕ}

theorem ofPosition_le (below : first ≤ second) :
    (ofPosition text first).toNat ≤ (ofPosition text second).toNat := by
  have lines : Text.lineAt text first ≤ Text.lineAt text second := Text.lineAt_le_lineAt below
  rw [ofPosition, ofPosition, toNat_ofNat_eq_min, toNat_ofNat_eq_min]
  omega

theorem one_le_ofPosition (text : List Char) (position : ℕ) :
    1 ≤ (ofPosition text position).toNat := by
  rw [ofPosition, toNat_ofNat_eq_min, Text.lineAt]
  omega

/-- A text has one more line than line ends, and no position is below the last one. -/
theorem ofPosition_le_lineEnds (text : List Char) (position : ℕ) :
    (ofPosition text position).toNat ≤ min (1 + Text.lineEnds text) (2 ^ 32 - 1) := by
  have within : Text.lineAt text position ≤ Text.lineEnds text + 1 :=
    Text.lineAt_le_lineAt_length text position
  rw [ofPosition, toNat_ofNat_eq_min]
  omega

/-- Where all lines can be counted, a line feed parts the lines of two positions. -/
theorem ofPosition_lt (fits : Text.lineAt text text.length < 2 ^ 32) {feed : ℕ}
    (above : first ≤ feed) (isFeed : text[feed]? = some '\n') (below : feed < second) :
    (ofPosition text first).toNat < (ofPosition text second).toNat := by
  have lines := Text.lineAt_lt_lineAt above isFeed below
  have bound := Text.lineAt_le_lineAt_length text second
  rw [ofPosition, ofPosition, toNat_ofNat (by omega), toNat_ofNat (by omega)]
  exact lines

end Positions

end SampleMethods.LineNumber
