import SampleMethods.Yaml.Error

/-!
# Reading through YAML documents

A cursor is the rest of a document and the place where it starts. `Scan` is the
monad of everything that reads on from a cursor or refuses what it finds.
-/

set_option autoImplicit false

namespace SampleMethods.Yaml

/-! ## Characters -/

/-- Whether a character is a blank within a line. -/
def isSpace (character : Char) : Bool :=
  character == ' ' || character == '\t'

/-- Whether a character ends a line. -/
def isBreak (character : Char) : Bool :=
  ['\n', '\r', '\x85', '\u2028', '\u2029'].contains character

/-- Whether a character may be in a name: a letter or digit of ASCII, `_` or `-`. -/
def isWord (character : Char) : Bool :=
  character.isAlphanum || character == '_' || character == '-'

/-- Whether a character is a hexadecimal digit. -/
def isHexDigit (character : Char) : Bool :=
  (Text.hexDigit? character).isSome

/-- The number that a hexadecimal digit stands for. -/
def hexValue (character : Char) : Nat :=
  (Text.hexDigit? character).getD 0

/-- The number that hexadecimal digits stand for. -/
def hexNumber (digits : List Char) : Nat :=
  digits.foldl (fun number digit => 16 * number + hexValue digit) 0

/-- Whether the text is at its end, or starts with a blank or a line break. -/
def isGap : List Char → Bool
  | [] => true
  | character :: _ => isSpace character || isBreak character

/-- Whether the text starts with a marker between documents. -/
def isDocumentMarker : List Char → Bool
  | '-' :: '-' :: '-' :: rest => isGap rest
  | '.' :: '.' :: '.' :: rest => isGap rest
  | _ => false

/-- Whether documents may hold a character. -/
def isAllowed (character : Char) : Bool :=
  let code := character.toNat
  code == 0x09 || code == 0x0A || code == 0x0D || (0x20 ≤ code && code ≤ 0x7E) || code == 0x85 ||
    (0xA0 ≤ code && code ≤ 0xFFFD) || 0x10000 ≤ code

/-- The number of bytes in front of the first character that documents may not hold, behind
so many bytes. -/
def controlOffset? : Nat → List Char → Option Nat
  | _, [] => none
  | offset, character :: rest =>
    if isAllowed character then controlOffset? (offset + character.utf8Size) rest
    else some offset

/-! ## Cursors -/

/-- The rest of a document and its place. -/
structure Cursor where
  rest : List Char
  mark : Mark
deriving Repr, Inhabited

namespace Cursor

/-- The cursor behind so many characters, which are in one line. -/
def drop (cursor : Cursor) (count : Nat) : Cursor :=
  ⟨cursor.rest.drop count, cursor.mark.advance count⟩

/-- The characters of a line up to the first one that fails a test, and the cursor there. -/
def span (cursor : Cursor) (test : Char → Bool) : List Char × Cursor :=
  let taken := cursor.rest.takeWhile test
  (taken, cursor.drop taken.length)

/-- The cursor behind a line break, if there is one, and the text that the break stands for. -/
def dropBreak (cursor : Cursor) : List Char × Cursor :=
  let next (count : Nat) : Cursor :=
    ⟨cursor.rest.drop count, ⟨cursor.mark.index + count, cursor.mark.line + 1, 0⟩⟩
  match cursor.rest with
  | '\r' :: '\n' :: _ => (['\n'], next 2)
  | character :: _ =>
    if character == '\u2028' || character == '\u2029' then ([character], next 1)
    else if isBreak character then (['\n'], next 1)
    else ([], cursor)
  | [] => ([], cursor)

/-- Whether the rest starts with a character. -/
def startsWith (cursor : Cursor) (character : Char) : Bool :=
  cursor.rest.head? == some character

/-- Whether the rest starts with a line break. -/
def atBreak (cursor : Cursor) : Bool :=
  cursor.rest.head?.any isBreak

/-- Whether a line ends here. -/
def atLineEnd (cursor : Cursor) : Bool :=
  cursor.rest.head?.all isBreak

/-- Whether there is a marker between documents, which has to start a line. -/
def atDocumentMarker (cursor : Cursor) : Bool :=
  cursor.mark.column == 0 && isDocumentMarker cursor.rest

end Cursor

/-! ## Reading -/

/-- What reads on from a cursor. -/
abbrev Scan := StateT Cursor (Except Error)

namespace Scan

/-- Refuses the document for a problem at the cursor. -/
def fail {α : Type} (activity : Activity) (start : Mark) (problem : Problem) : Scan α := do
  throw (.form ⟨problem, (← get).mark, some ⟨activity, start⟩⟩)

/-- The place of the cursor. -/
def mark : Scan Mark :=
  return (← get).mark

/-- The rest of the document. -/
def rest : Scan (List Char) :=
  return (← get).rest

/-- Moves over characters of a line. -/
def drop (count : Nat) : Scan Unit :=
  modify fun cursor => cursor.drop count

/-- Moves over the characters of a line up to the first one that fails a test. -/
def span (test : Char → Bool) : Scan (List Char) :=
  modifyGet fun cursor => cursor.span test

/-- Moves over the characters of a line that pass a test. -/
def skip (test : Char → Bool) : Scan Unit := do
  discard (span test)

/-- Moves over a line break, if there is one, and gives the text that it stands for. -/
def lineBreak : Scan (List Char) :=
  modifyGet fun cursor => cursor.dropBreak

/-- Whether the rest starts with a character. -/
def sees (character : Char) : Scan Bool :=
  return (← get).startsWith character

/-- Moves over a comment, if there is one. -/
def comment : Scan Unit := do
  if ← sees '#' then
    skip fun character => !isBreak character

end Scan

end SampleMethods.Yaml
