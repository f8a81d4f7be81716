/-!
# Text as bytes

A text is written as bytes in UTF-8. A row of bytes need not be written by any
text, and what it reads as is then told in two ways: not at all, or as a text in
which every part that is no character is replaced.
-/

set_option autoImplicit false

namespace SampleMethods.Text

/-- A row of bytes. -/
abbrev Bytes := List UInt8

/-- The byte of the slash. -/
def slash : UInt8 := 47

/-- The byte of the point. -/
def point : UInt8 := 46

@[simp] theorem zero_ne_slash : 0 ≠ slash := by decide

@[simp] theorem point_ne_slash : point ≠ slash := by decide

@[simp] theorem slash_ne_point : slash ≠ point := by decide

/-! ## Writing -/

/-- The bytes of a character. -/
def bytesOf (character : Char) : Bytes :=
  String.utf8EncodeChar character

/-- The bytes of a row of characters. -/
def encode (text : List Char) : Bytes :=
  text.flatMap bytesOf

/-- The bytes of a text. -/
def bytes (text : String) : Bytes :=
  encode text.toList

/-! ## Reading -/

/-- What bytes that were read so far are. -/
inductive Piece where
  | character (character : Char)
  /-- The bytes that some longer characters begin with. -/
  | begun
  /-- No character begins with the bytes. -/
  | broken
deriving DecidableEq, Repr

/-- Whether a byte may stand behind the first two of a character. -/
def isTail (byte : Nat) : Bool :=
  0x80 ≤ byte && byte < 0xC0

/-- Whether two bytes may begin a character together. Characters are written with as few bytes as
they can be, and surrogates are none. -/
def isLead (first second : Nat) : Bool :=
  if first == 0xE0 then 0xA0 ≤ second && second < 0xC0
  else if first == 0xED then 0x80 ≤ second && second < 0xA0
  else if first == 0xF0 then 0x90 ≤ second && second < 0xC0
  else if first == 0xF4 then 0x80 ≤ second && second < 0x90
  else 0xC2 ≤ first && first < 0xF4 && isTail second

/-- What bytes are, which are given by their numbers. -/
def pieceOf : List Nat → Piece
  | [first] =>
    if first < 0x80 then .character (.ofNat first)
    else if 0xC2 ≤ first && first < 0xF5 then .begun
    else .broken
  | [first, second] =>
    if isLead first second then
      if first < 0xE0 then .character (.ofNat ((first - 0xC0) * 0x40 + (second - 0x80)))
      else .begun
    else .broken
  | [first, second, third] =>
    if 0xE0 ≤ first && isLead first second && isTail third then
      if first < 0xF0 then
        .character (.ofNat ((first - 0xE0) * 0x1000 + (second - 0x80) * 0x40 + (third - 0x80)))
      else .begun
    else .broken
  | [first, second, third, fourth] =>
    if 0xF0 ≤ first && isLead first second && isTail third && isTail fourth then
      .character (.ofNat ((first - 0xF0) * 0x40000 + (second - 0x80) * 0x1000 +
        (third - 0x80) * 0x40 + (fourth - 0x80)))
    else .broken
  | _ => .broken

/-- What bytes are. -/
def piece (bytes : Bytes) : Piece :=
  pieceOf (bytes.map UInt8.toNat)

/-- The characters that bytes are read as, behind those that were begun. Where the bytes stop
being the beginning of a character there is none, and the reading starts again. -/
def decodeBehind (begun : Bytes) : Bytes → List (Option Char)
  | [] => if begun.isEmpty then [] else [none]
  | byte :: rest =>
    let alone :=
      match piece [byte] with
      | .character character => some character :: decodeBehind [] rest
      | .begun => decodeBehind [byte] rest
      | .broken => none :: decodeBehind [] rest
    if begun.isEmpty then alone
    else
      match piece (begun ++ [byte]) with
      | .character character => some character :: decodeBehind [] rest
      | .begun => decodeBehind (begun ++ [byte]) rest
      | .broken => none :: alone

/-- The characters that bytes are read as, and nothing for each part that is no character. -/
def decode (bytes : Bytes) : List (Option Char) :=
  decodeBehind [] bytes

/-- The text that is written as the bytes, if there is one. -/
def decode? (bytes : Bytes) : Option (List Char) :=
  (decode bytes).mapM id

/-- What stands for a part of bytes that is no character. -/
def replacement : Char :=
  '\uFFFD'

/-- The bytes as a text, with every part that is no character replaced. -/
def decodeLossy (bytes : Bytes) : List Char :=
  (decode bytes).map (·.getD replacement)

end SampleMethods.Text
