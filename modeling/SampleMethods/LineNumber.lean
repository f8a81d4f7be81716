import SampleMethods.Text.Line

/-!
# Line numbers

Lines are counted from one, in 32 bits: a line too far down to be counted has
the greatest number there is.
-/

set_option autoImplicit false

namespace SampleMethods

/-- The number of a line. -/
structure LineNumber where
  toNat : Nat
  fits : toNat < Nat.pow 2 32 := by omega
deriving DecidableEq, Repr

namespace LineNumber

/-- The greatest line number. -/
def greatest : LineNumber :=
  ⟨Nat.pow 2 32 - 1, by decide⟩

/-- The line number closest to a number. -/
def ofNat (number : Nat) : LineNumber :=
  if fits : number < Nat.pow 2 32 then ⟨number, fits⟩ else greatest

/-- Whether a line is another one or above it. -/
def isAtMost (first second : LineNumber) : Bool :=
  first.toNat ≤ second.toNat

/-- The lower one of two lines. -/
def lower (first second : LineNumber) : LineNumber :=
  if first.isAtMost second then second else first

/-- The line that a position of a text is on. -/
def ofPosition (text : List Char) (position : Nat) : LineNumber :=
  ofNat (Text.lineAt text position)

end LineNumber

end SampleMethods
