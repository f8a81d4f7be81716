import SampleMethods.Yaml.Error
import SampleMethods.Yaml.Value

/-!
# What plain scalars stand for

A scalar that is written without quotes may stand for something other than its
text: for nothing, a truth value or a number. Digits behind a zero are a text,
because it is open in which base they would be read.
-/

set_option autoImplicit false

namespace SampleMethods.Yaml.Scalar

/-! ## Words -/

/-- Whether a text is a word for nothing. -/
def isNull (text : String) : Bool :=
  ["null", "Null", "NULL", "~"].contains text

/-- The truth value that a text is a word for. -/
def bool? (text : String) : Option Bool :=
  if ["true", "True", "TRUE"].contains text then some true
  else if ["false", "False", "FALSE"].contains text then some false
  else none

/-! ## Whole numbers -/

/-- The number that a character is as a digit. -/
def digit? (base : Nat) (character : Char) : Option Nat :=
  let value :=
    if character.isDigit then character.toNat - '0'.toNat
    else if 'a' ≤ character && character ≤ 'f' then character.toNat - 'a'.toNat + 10
    else if 'A' ≤ character && character ≤ 'F' then character.toNat - 'A'.toNat + 10
    else base
  if value < base then some value else none

/-- The number that a row of digits is, which is not empty. -/
def natural? (base : Nat) (text : List Char) : Option Nat :=
  if text.isEmpty then none
  else (text.mapM (digit? base)).map fun digits =>
    digits.foldl (fun number digit => base * number + digit) 0

/-- The size of a whole number without a sign, which is below a limit. -/
def size? (limit : Nat) (text : List Char) : Option Nat :=
  let below (size : Option Nat) := size.filter fun size => size < limit
  let marked :=
    match text with
    | '0' :: 'x' :: digits => below (natural? 16 digits)
    | '0' :: 'o' :: digits => below (natural? 8 digits)
    | '0' :: 'b' :: digits => below (natural? 2 digits)
    | _ => none
  marked.or (below (natural? 10 text))

/-- Whether the text is a zero and further digits, with or without a sign. -/
def isPadded (text : List Char) : Bool :=
  let digits := match text with
    | '-' :: digits | '+' :: digits => digits
    | digits => digits
  1 < digits.length && digits.head? == some '0' && digits.all Char.isDigit

/-- The sign and the size of a whole number of so many bits. One below zero may be one
larger. -/
def whole? (bits : Nat) (text : List Char) : Option (Bool × Nat) :=
  if isPadded text then none
  else
    match text with
    | '-' :: digits => (size? (Nat.pow 2 (bits - 1) + 1) digits).map fun size => (true, size)
    | '+' :: digits => (size? (Nat.pow 2 bits) digits).map fun size => (false, size)
    | digits => (size? (Nat.pow 2 bits) digits).map fun size => (false, size)

/-- The value of a whole number, or nothing if the text is none. -/
def integer? (text : List Char) : Option (Except ValueProblem Yaml) :=
  match whole? 64 text with
  | some (negative, size) =>
    some (.ok (.number (if negative && size != 0 then .negative size else .natural size)))
  | none =>
    (whole? 128 text).map fun (negative, size) => .error (.wideInteger negative size)

/-! ## Fractions -/

/-- The number that digits are. -/
def number (digits : List Char) : Nat :=
  (natural? 10 digits).getD 0

/-- The exponent behind a number, which may be missing. -/
def exponent? : List Char → Option Int
  | [] => some 0
  | mark :: rest =>
    if mark == 'e' || mark == 'E' then
      match rest with
      | '-' :: digits => (natural? 10 digits).map fun size => -(size : Int)
      | '+' :: digits => (natural? 10 digits).map fun size => (size : Int)
      | digits => (natural? 10 digits).map fun size => (size : Int)
    else none

/-- The decimal that a text without a sign writes. -/
def decimal? (text : List Char) : Option Decimal := do
  let whole := text.takeWhile Char.isDigit
  let rest := text.dropWhile Char.isDigit
  let (fraction, rest) :=
    match rest with
    | '.' :: rest => (rest.takeWhile Char.isDigit, rest.dropWhile Char.isDigit)
    | rest => ([], rest)
  if whole.isEmpty && fraction.isEmpty then none
  let exponent ← exponent? rest
  return ⟨number (whole ++ fraction), exponent - fraction.length⟩

/-- The finite number that a text writes, which may have a minus sign. -/
def finite? (text : List Char) : Option Double :=
  match text with
  | '-' :: rest => (decimal? rest).bind (Double.ofDecimal? true)
  | rest => (decimal? rest).bind (Double.ofDecimal? false)

/-- The number with a fraction that a text writes. -/
def fraction? (text : List Char) : Option Number :=
  let positive : Option (List Char) :=
    match text with
    | '+' :: '+' :: _ | '+' :: '-' :: _ => none
    | '+' :: rest => some rest
    | rest => some rest
  positive.bind fun positive =>
    if [".inf", ".Inf", ".INF"].contains (String.ofList positive) then some (.infinite false)
    else if ["-.inf", "-.Inf", "-.INF"].contains (String.ofList text) then some (.infinite true)
    else if [".nan", ".NaN", ".NAN"].contains (String.ofList text) then some .notANumber
    else (finite? positive).map .fraction

/-! ## Values -/

/-- The value that a plain scalar stands for. -/
def plain (text : String) : Except ValueProblem Yaml :=
  let characters := text.toList
  if text.isEmpty || isNull text then .ok .null
  else
    match bool? text with
    | some value => .ok (.bool value)
    | none =>
      match integer? characters with
      | some result => result
      | none =>
        match if isPadded characters then none else fraction? characters with
        | some value => .ok (.number value)
        | none => .ok (.string text)

/-- The value, or the problem that a text is not what its tag promises. -/
def promised (text wanted : String) (value : Option Yaml) : Except ValueProblem Yaml :=
  match value with
  | some value => .ok value
  | none => .error (.notOfTag text wanted)

/-- The value that a scalar with a tag of the language stands for. -/
def ofTag (tag text : String) : Except ValueProblem Yaml :=
  if tag == "tag:yaml.org,2002:bool" then
    promised text "a boolean" ((bool? text).map .bool)
  else if tag == "tag:yaml.org,2002:int" then
    match integer? text.toList with
    | some result => result
    | none => .error (.notOfTag text "an integer")
  else if tag == "tag:yaml.org,2002:float" then
    promised text "a float" ((fraction? text.toList).map .number)
  else if tag == "tag:yaml.org,2002:null" then
    promised text "null" (if isNull text then some .null else none)
  else .ok (.string text)

end SampleMethods.Yaml.Scalar
