/-!
# Binary numbers and their shortest decimals

A finite binary number is a significand of at most 53 bits times a power of
two. This module has the two conversions between such numbers and decimals:
the binary number nearest to a decimal, where a tie goes to the even
significand, and the decimal with the fewest digits that is nearest to the
binary number again. Both work on exact fractions.
-/

set_option autoImplicit false

namespace SampleMethods

/-- A finite binary number: plus or minus `significand * 2 ^ exponent`. -/
structure Double where
  negative : Bool
  significand : Nat
  exponent : Int
deriving DecidableEq, Repr

/-- A decimal: `digits * 10 ^ exponent`, without a sign. -/
structure Decimal where
  digits : Nat
  exponent : Int
deriving DecidableEq, Repr

namespace Double

/-- The smallest exponent of a binary number. -/
def leastExponent : Int := -1074

/-- The fraction that a power of a base times a number is. -/
def scaled (base number : Nat) (exponent : Int) : Nat × Nat :=
  if 0 ≤ exponent then (number * base.pow exponent.toNat, 1)
  else (number, base.pow (-exponent).toNat)

/-- The whole number nearest to a fraction, the even one of two. -/
def roundHalfEven (numerator denominator : Nat) : Nat :=
  let quotient := numerator / denominator
  let twice := 2 * (numerator % denominator)
  if twice < denominator then quotient
  else if denominator < twice then quotient + 1
  else if quotient % 2 = 0 then quotient
  else quotient + 1

/-- The exponent of the binary number nearest to a fraction. -/
def exponentFor (numerator denominator : Nat) : Int :=
  let estimate : Int := (numerator.log2 : Int) - denominator.log2 - 52
  let (top, bottom) := scaled 2 numerator (-estimate)
  let estimate := if top < Nat.pow 2 52 * (bottom * denominator) then estimate - 1 else estimate
  max estimate leastExponent

/-- The binary number nearest to a decimal, or nothing where that would be infinite. -/
def ofDecimal? (negative : Bool) (decimal : Decimal) : Option Double :=
  let size := decimal.exponent + (toString decimal.digits).length
  if decimal.digits = 0 || size < -330 then some ⟨negative, 0, leastExponent⟩
  else if 310 < size then none
  else
    let (numerator, denominator) := scaled 10 decimal.digits decimal.exponent
    let exponent := exponentFor numerator denominator
    let (top, bottom) := scaled 2 numerator (-exponent)
    let significand := roundHalfEven top (bottom * denominator)
    let (significand, exponent) :=
      if significand = Nat.pow 2 53 then (Nat.pow 2 52, exponent + 1) else (significand, exponent)
    if 971 < exponent then none else some ⟨negative, significand, exponent⟩

/-! ## Shortest decimals -/

/-- Whether a decimal is nearer to the binary number than to its neighbours. -/
def isNearest (number : Double) (decimal : Decimal) : Bool :=
  let (top, bottom) := scaled 10 decimal.digits decimal.exponent
  let (value, unit) := scaled 2 (4 * number.significand) number.exponent
  let step := (scaled 2 1 number.exponent).1
  let below := if number.significand = Nat.pow 2 52 && leastExponent < number.exponent then step
    else 2 * step
  let closed := number.significand % 2 = 0
  let given := 4 * top * unit
  let low := (value - below) * bottom
  let high := (value + 2 * step) * bottom
  if closed then low ≤ given && given ≤ high else low < given && given < high

/-- The distance of a decimal from the binary number, over a common denominator. -/
def distance (number : Double) (decimal : Decimal) : Nat :=
  let (top, bottom) := scaled 10 decimal.digits decimal.exponent
  let (value, unit) := scaled 2 number.significand number.exponent
  let (first, second) := (top * unit, value * bottom)
  if first ≤ second then second - first else first - second

/-- The better one of the two decimals around the binary number whose last digit has the
place of the exponent, if one of them is near enough. -/
def nearestOnGrid? (number : Double) (exponent : Int) : Option Decimal :=
  let (value, unit) := scaled 2 number.significand number.exponent
  let (top, bottom) := scaled 10 value (-exponent)
  let floor : Decimal := ⟨top / (bottom * unit), exponent⟩
  let ceiling : Decimal := ⟨floor.digits + 1, exponent⟩
  match isNearest number floor, isNearest number ceiling with
  | true, true => if distance number ceiling < distance number floor then some ceiling else some floor
  | true, false => some floor
  | false, true => some ceiling
  | false, false => none

/-- Searches grids from coarse to fine. `rounds` bounds the number of grids. -/
def searchGrids (number : Double) : Nat → Int → Decimal
  | 0, exponent => (nearestOnGrid? number exponent).getD ⟨0, 0⟩
  | rounds + 1, exponent =>
    match nearestOnGrid? number exponent with
    | some decimal => if decimal.digits = 0 then searchGrids number rounds (exponent - 1) else decimal
    | none => searchGrids number rounds (exponent - 1)

/-- A decimal with no zero at its end. -/
def dropZeros : Nat → Decimal → Decimal
  | 0, decimal => decimal
  | rounds + 1, decimal =>
    if decimal.digits % 10 = 0 && decimal.digits != 0 then
      dropZeros rounds ⟨decimal.digits / 10, decimal.exponent + 1⟩
    else decimal

/-- The decimal with the fewest digits that is nearest to the binary number. -/
def shortest (number : Double) : Decimal :=
  if number.significand = 0 then ⟨0, 0⟩
  else
    let (value, unit) := scaled 2 number.significand number.exponent
    let places : Int := ((toString value).length : Int) - (toString unit).length
    dropZeros 20 (searchGrids number 25 (places + 1))

/-! ## Written forms -/

/-- A text of so many zeros. -/
def zeros (count : Int) : String :=
  String.ofList (List.replicate count.toNat '0')

/-- The digits of a decimal with a point where it belongs, without an exponent. `fraction`
says whether a whole number is written with a fraction too. -/
def positional (fraction : Bool) (decimal : Decimal) : String :=
  let digits := toString decimal.digits
  let length : Int := digits.length
  let point := length + decimal.exponent
  if 0 ≤ decimal.exponent then
    digits ++ zeros decimal.exponent ++ (if fraction then ".0" else "")
  else if 0 < point then
    String.ofList (digits.toList.take point.toNat) ++ "." ++
      String.ofList (digits.toList.drop point.toNat)
  else "0." ++ zeros (-point) ++ digits

/-- The digits of a decimal with an exponent. -/
def scientific (plus : String) (decimal : Decimal) : String :=
  let digits := (toString decimal.digits).toList
  let exponent := decimal.exponent + digits.length - 1
  let fraction := digits.tail
  String.ofList (digits.take 1) ++
    (if fraction.isEmpty then "" else "." ++ String.ofList fraction) ++
    "e" ++ (if exponent < 0 then "" else plus) ++ toString exponent

/-- A binary number as data formats write it: with a point, and with an exponent when it
is very large or small. `plus` stands before an exponent that is not negative. -/
def render (plus : String) (number : Double) : String :=
  let decimal := number.shortest
  let point := (toString decimal.digits).length + decimal.exponent
  (if number.negative then "-" else "") ++
    if decimal.digits = 0 then "0.0"
    else if -5 < point && point ≤ 16 then positional true decimal
    else scientific plus decimal

/-- A binary number as messages write it: never with an exponent, and without a point when
it is a whole number. -/
def renderPlain (number : Double) : String :=
  (if number.negative then "-" else "") ++ positional false number.shortest

end Double

end SampleMethods
