import Mathlib.Data.List.Forall2
import SampleMethods.Proofs.Json.Scalars

/-!
# Documents as they are written

The grammar of JSON texts, as trees. A `Document` is a value with blanks around it, and its
`text` is what is written. A tree holds everything that its text shows: blanks, the digits of
numbers, the escapes in strings, the members of objects in their order. So every text of the
grammar is the text of a tree, also one with numbers that are out of range, with halves of
surrogate pairs or with brackets that are nested too deep to be read.

What a written value stands for is a second question (`Represents`). A string with half of a
surrogate pair in it stands for nothing.
-/

set_option autoImplicit false

namespace SampleMethods.Json

namespace Document

/-! ## Blanks -/

/-- Blanks between the parts of a document. -/
structure Blanks where
  text : List Char
  areBlank : Reader.AreBlank text

/-! ## Numbers -/

/-- At least one decimal digit. -/
structure Digits where
  first : Char
  others : List Char
  areDigits : ∀ digit ∈ first :: others, Reader.isDigit digit = true

/-- The digits. -/
def Digits.text (digits : Digits) : List Char :=
  digits.first :: digits.others

/-- The exponent of a number, with its mark. -/
structure Exponent where
  mark : Char
  sign : Option Char
  size : Digits
  isMark : mark = 'e' ∨ mark = 'E'
  isSign : ∀ character ∈ sign, character = '+' ∨ character = '-'

/-- What an exponent is written as. -/
def Exponent.text (exponent : Exponent) : List Char :=
  exponent.mark :: (exponent.sign.toList ++ exponent.size.text)

/-- A number. Zero is the only whole part that begins with a zero. -/
structure Number where
  isNegative : Bool
  whole : Digits
  decimals : Option Digits
  exponent : Option Exponent
  zeroAlone : whole.first = '0' → whole.others = []

/-- The digits behind the point of a number, with the point. -/
def Number.decimalText (number : Number) : List Char :=
  match number.decimals with
  | some digits => '.' :: digits.text
  | none => []

/-- What the exponent of a number is written as, if it has one. -/
def Number.exponentText (number : Number) : List Char :=
  match number.exponent with
  | some exponent => exponent.text
  | none => []

/-- What a number is written as. -/
def Number.text (number : Number) : List Char :=
  (if number.isNegative then ['-'] else []) ++
    (number.whole.text ++ (number.decimalText ++ number.exponentText))

/-! ## Strings -/

/-- A hexadecimal digit and its value. -/
structure HexDigit where
  character : Char
  value : Nat
  isValue : Text.hexDigit? character = some value

/-- Four hexadecimal digits. -/
structure CodeUnit where
  first : HexDigit
  second : HexDigit
  third : HexDigit
  fourth : HexDigit

namespace CodeUnit

variable (unit : CodeUnit)

/-- The digits. -/
def text : List Char :=
  [unit.first.character, unit.second.character, unit.third.character, unit.fourth.character]

/-- The number that the digits write. -/
def code : Nat :=
  ((unit.first.value * 16 + unit.second.value) * 16 + unit.third.value) * 16 + unit.fourth.value

/-- Whether the code is the first half of a surrogate pair. -/
def isHigh : Bool :=
  !(unit.code < 0xD800 || 0xDBFF < unit.code)

/-- Whether the code is the second half of a surrogate pair. -/
def isLow : Bool :=
  0xDC00 ≤ unit.code && unit.code ≤ 0xDFFF

/-- The character of a surrogate pair. -/
def pairWith (low : CodeUnit) : Char :=
  Char.ofNat ((unit.code - 0xD800) * 0x400 + (low.code - 0xDC00) + 0x10000)

end CodeUnit

/-- A part of a string: a character, an escape by a letter or an escape by a code. -/
inductive Piece where
  | plain (character : Char) (noQuote : character ≠ '"') (noBackslash : character ≠ '\\')
      (noControl : ¬character.toNat < 0x20)
  | letter (name character : Char) (isNamed : (name, character) ∈ ('/', '/') :: named)
  | code (unit : CodeUnit)

/-- What a part of a string is written as. -/
def Piece.text : Piece → List Char
  | plain character _ _ _ => [character]
  | letter name _ _ => ['\\', name]
  | code unit => '\\' :: 'u' :: unit.text

/-- The characters that the parts of a string stand for, unless half of a surrogate pair is
among them that has no other half behind or in front of it. -/
def characters? : List Piece → Option (List Char)
  | [] => some []
  | .plain character _ _ _ :: pieces => (characters? pieces).map (character :: ·)
  | .letter _ character _ :: pieces => (characters? pieces).map (character :: ·)
  | .code unit :: .code low :: pieces =>
    if unit.isHigh then
      if low.isLow then (characters? pieces).map (unit.pairWith low :: ·) else none
    else if unit.isLow then none
    else (characters? (.code low :: pieces)).map (Char.ofNat unit.code :: ·)
  | .code unit :: pieces =>
    if unit.isHigh || unit.isLow then none
    else (characters? pieces).map (Char.ofNat unit.code :: ·)

/-- What a string is written as, with its quotes. -/
def stringText (pieces : List Piece) : List Char :=
  '"' :: (pieces.flatMap Piece.text ++ ['"'])

/-- The parts of a string stand for the text. -/
def StandFor (pieces : List Piece) (text : String) : Prop :=
  characters? pieces = some text.toList

/-- Every character of the text may stand for itself in a string. -/
def ArePlain (text : List Char) : Prop :=
  ∀ character ∈ text, character ≠ '"' ∧ character ≠ '\\' ∧ ¬character.toNat < 0x20

instance : DecidablePred ArePlain := fun text =>
  decidable_of_iff (text.all fun character =>
    decide (character ≠ '"' ∧ character ≠ '\\' ∧ ¬character.toNat < 0x20)) (by simp [ArePlain])

/-- A string of characters that stand for themselves. -/
def plainPieces (text : List Char) (arePlain : ArePlain text) : List Piece :=
  text.pmap (fun character isPlain => .plain character isPlain.1 isPlain.2.1 isPlain.2.2) arePlain

section Plain

variable {text : List Char} (arePlain : ArePlain text)

theorem characters?_plainPieces : characters? (plainPieces text arePlain) = some text := by
  induction text with
  | nil => rfl
  | cons character text ih =>
      exact congrArg (Option.map (character :: ·)) (ih (List.forall_mem_cons.mp arePlain).2)

theorem stringText_plainPieces :
    stringText (plainPieces text arePlain) = '"' :: (text ++ ['"']) := by
  have same : (plainPieces text arePlain).flatMap Piece.text = text := by
    induction text with
    | nil => rfl
    | cons character text ih =>
        exact congrArg (character :: ·) (ih (List.forall_mem_cons.mp arePlain).2)
  rw [stringText, same]

end Plain

theorem StandFor.eq {pieces : List Piece} {text other : String} (standFor : StandFor pieces text)
    (standForOther : StandFor pieces other) : text = other :=
  String.toList_inj.mp (Option.some.inj (standFor.symm.trans standForOther))

/-! ## Values -/

/-- A part of a list or an object, with the blanks around it. -/
structure Part (α : Type) where
  front : Blanks
  content : α
  back : Blanks

/-- A name and what it is given, with the blanks around the colon. -/
structure Binding (α : Type) where
  key : List Piece
  gap : Blanks
  space : Blanks
  value : α

/-- A value as it is written. Behind the parts of a list or an object there may be blanks, also if
there are no parts. -/
inductive Value where
  | null
  | bool (value : Bool)
  | number (number : Number)
  | string (pieces : List Piece)
  | array (elements : List (Part Value)) (last : Blanks)
  | object (members : List (Part (Binding Value))) (last : Blanks)

/-- Parts behind the first one, and the closing bracket. -/
def behindPart (closing : Char) (last : Blanks) : List (List Char) → List Char
  | [] => last.text ++ [closing]
  | part :: parts => ',' :: (part ++ behindPart closing last parts)

/-- Parts and the closing bracket. -/
def behindOpening (closing : Char) (last : Blanks) : List (List Char) → List Char
  | [] => last.text ++ [closing]
  | part :: parts => part ++ behindPart closing last parts

/-- What a part is written as, if its content is written as the text. -/
def Part.textWith {α : Type} (part : Part α) (text : List Char) : List Char :=
  part.front.text ++ (text ++ part.back.text)

/-- What a binding is written as, if its value is written as the text. -/
def Binding.textWith {α : Type} (binding : Binding α) (text : List Char) : List Char :=
  stringText binding.key ++ (binding.gap.text ++ ':' :: (binding.space.text ++ text))

theorem sizeOf_content_lt {α : Type} [SizeOf α] {part : Part α} {parts : List (Part α)}
    (isPart : part ∈ parts) : sizeOf part.content < sizeOf parts := by
  have smaller := List.sizeOf_lt_of_mem isPart
  cases part
  simp only [Part.mk.sizeOf_spec] at smaller ⊢
  omega

theorem sizeOf_value_lt {α : Type} [SizeOf α] {part : Part (Binding α)}
    {parts : List (Part (Binding α))} (isPart : part ∈ parts) :
    sizeOf part.content.value < sizeOf parts := by
  have smaller := sizeOf_content_lt isPart
  cases binding : part.content
  rw [binding] at smaller
  simp only [Binding.mk.sizeOf_spec] at smaller ⊢
  omega

/-- What a value is written as. -/
def Value.text : Value → List Char
  | .null => "null".toList
  | .bool true => "true".toList
  | .bool false => "false".toList
  | .number written => written.text
  | .string pieces => stringText pieces
  | .array elements last =>
    '[' :: behindOpening ']' last (elements.map fun part => part.textWith part.content.text)
  | .object members last =>
    '\x7b' :: behindOpening '\x7d' last
      (members.map fun part => part.textWith (part.content.textWith part.content.value.text))
termination_by value => sizeOf value
decreasing_by
  · have := sizeOf_content_lt ‹_›
    simp only [Value.array.sizeOf_spec]
    omega
  · have := sizeOf_value_lt ‹_›
    simp only [Value.object.sizeOf_spec]
    omega

/-- What holds of a list or an object if it holds of each value in it holds of every value. -/
@[induction_eliminator]
theorem Value.induct {property : Value → Prop} (null : property null)
    (bool : ∀ value, property (bool value)) (number : ∀ written, property (number written))
    (string : ∀ pieces, property (string pieces))
    (array : ∀ elements last, (∀ part ∈ elements, property part.content) →
      property (array elements last))
    (object : ∀ members last, (∀ part ∈ members, property part.content.value) →
      property (object members last)) (value : Value) : property value :=
  match value with
  | .null => null
  | .bool value => bool value
  | .number written => number written
  | .string pieces => string pieces
  | .array elements last => array elements last fun part isPart =>
      have := sizeOf_content_lt isPart
      induct null bool number string array object part.content
  | .object members last => object members last fun part isPart =>
      have := sizeOf_value_lt isPart
      induct null bool number string array object part.content.value
termination_by sizeOf value
decreasing_by
  · simp only [Value.array.sizeOf_spec]
    omega
  · simp only [Value.object.sizeOf_spec]
    omega

/-! ## What values stand for -/

/-- The value stands for the JSON value. Any number may come out of the text of a number, but each
string is the text that its parts stand for. -/
inductive Represents : Value → Json → Prop where
  | null : Represents .null .null
  | bool (value : Bool) : Represents (.bool value) (.bool value)
  | number (written : Number) (number : Json.Number) :
      Represents (.number written) (.number number)
  | string {pieces : List Piece} {text : String} (standFor : StandFor pieces text) :
      Represents (.string pieces) (.string text)
  | array {elements : List (Part Value)} {last : Blanks} {items : List Json}
      (each : List.Forall₂ (fun part item => Represents part.content item) elements items) :
      Represents (.array elements last) (.array items)
  | object {parts : List (Part (Binding Value))} {last : Blanks} {members : List (String × Json)}
      (keys : List.Forall₂ (fun part member => StandFor part.content.key member.1) parts members)
      (values : List.Forall₂ (fun part member => Represents part.content.value member.2)
        parts members) :
      Represents (.object parts last) (.ofMembers members)

/-- No two members of an object in the value have keys that stand for one name. -/
inductive DistinctKeys : Value → Prop where
  | null : DistinctKeys .null
  | bool (value : Bool) : DistinctKeys (.bool value)
  | number (written : Number) : DistinctKeys (.number written)
  | string (pieces : List Piece) : DistinctKeys (.string pieces)
  | array {elements : List (Part Value)} {last : Blanks}
      (each : ∀ part ∈ elements, DistinctKeys part.content) :
      DistinctKeys (.array elements last)
  | object {parts : List (Part (Binding Value))} {last : Blanks}
      (distinct : parts.Pairwise fun first second =>
        ∀ name, StandFor first.content.key name → ¬StandFor second.content.key name)
      (each : ∀ part ∈ parts, DistinctKeys part.content.value) :
      DistinctKeys (.object parts last)

end Document

/-- A document as it is written. -/
structure Document where
  front : Document.Blanks
  value : Document.Value
  back : Document.Blanks

/-- The text of a document. -/
def Document.text (document : Document) : String :=
  String.ofList (document.front.text ++ (document.value.text ++ document.back.text))

end SampleMethods.Json
