import SampleMethods.Script.Identifier
import SampleMethods.Script.Token
import SampleMethods.Text.Blank
import SampleMethods.Text.Hex

/-!
# Reading tokens

The lexical grammar. `readGap` passes over blanks and comments, `readToken`
reads the token that follows, and four readers serve the places where the
surrounding construct decides how the text is to be read: regular expressions,
template pieces, text between markup tags, and the names and strings inside
markup tags.

Every reader goes through its text once, one character at a time. Where an
escape covers several characters, the reader carries the number of characters
that it still has to pass over, so each of them is recursion on the text.
-/

set_option autoImplicit false

namespace SampleMethods.Script

open SampleMethods.Text (hexDigit? isBlank)

/-! ## Blanks and comments -/

/-- Whether the character ends a line of a script. -/
def isLineTerminator (character : Char) : Bool :=
  character == '\n' || character == '\r' || character.toNat == 0x2028 ||
    character.toNat == 0x2029

/-- What a gap between two tokens is in the middle of. -/
inductive GapState where
  | blanks
  /-- A comment up to the end of its line. -/
  | lineComment
  /-- The star that opens a block comment. -/
  | blockOpening
  | blockComment
  /-- The slash that closes a block comment. -/
  | blockClosing
deriving DecidableEq, Repr

/-- The gap before a token: what follows it, where that is, and whether it has a line
end. `lead` is the position of the first comment in the gap that a mark other than
two slashes introduces; the token after such a comment begins there. -/
structure Gap where
  rest : List Char
  position : Nat
  newline : Bool
  lead : Option Nat
deriving Repr

/-- Whether a line comment of the older kind starts here: an opening mark anywhere, a
closing mark or a mark left by a failed merge at the start of a line. -/
def startsLegacyComment (newline : Bool) (text : List Char) : Bool :=
  "<!--".toList.isPrefixOf text ||
    (newline && ("-->".toList.isPrefixOf text || "<<<<<<< ".toList.isPrefixOf text ||
      ">>>>>>> ".toList.isPrefixOf text || "=======".toList.isPrefixOf text ||
      "||||||| ".toList.isPrefixOf text))

/-- Passes over blanks and comments. -/
def readGap : GapState → List Char → Nat → Bool → Option Nat → Gap
  | _, [], position, newline, lead => ⟨[], position, newline, lead⟩
  | .lineComment, character :: rest, position, newline, lead =>
    if isLineTerminator character then readGap .blanks rest (position + 1) true lead
    else readGap .lineComment rest (position + 1) newline lead
  | .blockOpening, _ :: rest, position, newline, lead =>
    readGap .blockComment rest (position + 1) newline lead
  | .blockComment, character :: rest, position, newline, lead =>
    if character == '*' && rest.head? == some '/' then
      readGap .blockClosing rest (position + 1) newline lead
    else readGap .blockComment rest (position + 1) (newline || isLineTerminator character) lead
  | .blockClosing, _ :: rest, position, newline, lead =>
    readGap .blanks rest (position + 1) newline lead
  | .blanks, character :: rest, position, newline, lead =>
    if isLineTerminator character then readGap .blanks rest (position + 1) true lead
    else if isBlank character || character.toNat == 0xFEFF then
      readGap .blanks rest (position + 1) newline lead
    else if character == '/' && rest.head? == some '/' then
      readGap .lineComment rest (position + 1) newline lead
    else if character == '/' && rest.head? == some '*' then
      readGap .blockOpening rest (position + 1) newline lead
    else if startsLegacyComment newline (character :: rest) then
      readGap .lineComment rest (position + 1) newline (lead.or (some position))
    else ⟨character :: rest, position, newline, lead⟩

/-! ## Escapes -/

/-- The character with the code point, or the replacement character where the code
point is half of a surrogate pair. -/
def characterOf (code : Nat) : Char :=
  if code.isValidChar then Char.ofNat code else Char.ofNat 0xFFFD

/-- The value of a row of hexadecimal digits. -/
def hexValue? (digits : List Char) : Option Nat :=
  digits.foldl (fun value digit => do return (← value) * 16 + (← hexDigit? digit)) (some 0)

/-- Reads the escape of a code point whose backslash has been read: the character it
stands for and the number of characters it takes. -/
def unicodeEscape : List Char → Except SyntaxError (Char × Nat)
  | 'u' :: '\x7b' :: rest =>
    let digits := rest.takeWhile fun character => (hexDigit? character).isSome
    match (rest.drop digits.length).head?, hexValue? digits with
    | some '\x7d', some value =>
      if digits.isEmpty || value > 0x10FFFF then
        .error (.badEscape "1-6 hex characters in the range 0 to 10FFFF.")
      else .ok (characterOf value, digits.length + 3)
    | _, _ => .error (.badEscape "1-6 hex characters")
  | 'u' :: rest =>
    let digits := rest.take 4
    match digits.length, hexValue? digits with
    | 4, some value => .ok (characterOf value, 5)
    | _, _ => .error (.badEscape "4 hex characters")
  | _ => .error .expectedUnicodeEscape

/-- Whether the character is an octal digit. -/
def isOctalDigit (character : Char) : Bool :=
  48 ≤ character.toNat && character.toNat ≤ 55

/-- Reads an escape of a string or template whose backslash has been read: the
characters it stands for and the number of characters it takes. Octal escapes are
refused inside templates. -/
def stringEscape (template : Bool) : List Char → Except SyntaxError (List Char × Nat)
  | [] => .error (.badEscape "an escape sequence")
  | '\r' :: '\n' :: _ => .ok ([], 2)
  | 'x' :: rest =>
    let digits := rest.take 2
    match digits.length, hexValue? digits with
    | 2, some value => .ok ([characterOf value], 3)
    | _, _ => .error (.badEscape "2 hex characters")
  | 'u' :: rest =>
    match unicodeEscape ('u' :: rest) with
    | .ok (character, length) => .ok ([character], length)
    | .error error => .error error
  | character :: rest =>
    if isLineTerminator character then .ok ([], 1)
    else if isOctalDigit character then
      if character == '0' && !(rest.head?.map isOctalDigit).getD false then
        .ok ([Char.ofNat 0], 1)
      else if template then .error .legacyOctal
      else
        let limit := if character.toNat ≤ 51 then 2 else 1
        let digits := character :: (rest.take limit).takeWhile isOctalDigit
        let value := digits.foldl (fun value digit => value * 8 + (digit.toNat - 48)) 0
        .ok ([characterOf value], digits.length)
    else
      let stands := match character with
        | 'n' => '\n' | 't' => '\t' | 'r' => '\r' | 'b' => Char.ofNat 8
        | 'v' => Char.ofNat 11 | 'f' => Char.ofNat 12 | other => other
      .ok ([stands], 1)

/-! ## Words, numbers and strings -/

/-- A token together with the text after it and the position of that text. -/
structure Read where
  token : Token
  rest : List Char
  position : Nat
deriving Repr

/-- The reading that refuses the text. -/
def Read.refuse (error : SyntaxError) (position : Nat) : Read :=
  ⟨.bad error, [], position⟩

/-- Reads the characters of a word. `skip` characters of an escape are still to be
passed over, `word` holds what was read in reverse, and `plain` says that there was
no escape so far. -/
def readWord : Nat → List Char → Nat → List Char → Bool → Read
  | _, [], position, word, plain => ⟨.word (String.ofList word.reverse) plain, [], position⟩
  | skip + 1, _ :: rest, position, word, plain => readWord skip rest (position + 1) word plain
  | 0, character :: rest, position, word, plain =>
    if Identifier.isContinue character then
      readWord 0 rest (position + 1) (character :: word) plain
    else if character == '\\' then
      match unicodeEscape rest with
      | .ok (escaped, length) => readWord length rest (position + 1) (escaped :: word) false
      | .error error => .refuse error position
    else ⟨.word (String.ofList word.reverse) plain, character :: rest, position⟩

/-- A word written with escapes must not be a reserved one. -/
def Read.refuseEscapedKeyword (read : Read) : Read :=
  match read.token with
  | .word text false =>
    if Identifier.isReserved text then .refuse (.escapeInReservedWord text) read.position else read
  | _ => read

/-- Whether the character is a digit of the radix or a separator between digits. -/
def isDigitOrSeparator (radix : Nat) (character : Char) : Bool :=
  character == '_' ||
    match hexDigit? character with
    | some value => value < radix
    | none => false

/-- A number must not run into an identifier. -/
def finishNumber (token : String → Token) (raw rest : List Char) (position : Nat) : Read :=
  let stop := position + raw.length
  if (rest.head?.map fun character => Identifier.isStart character || character == '\\').getD false
  then .refuse .identifierAfterNumber stop
  else ⟨token (String.ofList raw), rest, stop⟩

/-- Reads the exponent of a decimal number, of which `raw` has been read. -/
def readExponent (raw : List Char) (text : List Char) (position : Nat) : Read :=
  match text with
  | mark :: rest =>
    if mark == 'e' || mark == 'E' then
      let sign := rest.takeWhile (fun character => character == '+' || character == '-') |>.take 1
      let afterSign := rest.drop sign.length
      let digits := afterSign.takeWhile (isDigitOrSeparator 10)
      if digits.all (· == '_') then .refuse .missingExponent position
      else
        finishNumber .number (raw ++ mark :: sign ++ digits) (afterSign.drop digits.length) position
    else finishNumber .number raw text position
  | [] => finishNumber .number raw text position

/-- Reads a number with a mark for its radix. `raw` is the zero and the mark. -/
def readRadixNumber (radix : Nat) (raw text : List Char) (position : Nat) : Read :=
  let digits := text.takeWhile (isDigitOrSeparator radix)
  let rest := text.drop digits.length
  if digits.all (· == '_') then .refuse (.expectedDigit radix) position
  else if rest.head? == some 'n' then
    finishNumber .bigInt (raw ++ digits ++ ['n']) rest.tail position
  else finishNumber .number (raw ++ digits) rest position

/-- Reads a number that starts with a decimal digit or with a point and a digit. A row
of octal digits that starts with a superfluous zero takes no fraction. -/
def readNumber (text : List Char) (position : Nat) : Read :=
  match text with
  | '0' :: mark :: rest =>
    if mark == 'x' || mark == 'X' then readRadixNumber 16 ['0', mark] rest position
    else if mark == 'o' || mark == 'O' then readRadixNumber 8 ['0', mark] rest position
    else if mark == 'b' || mark == 'B' then readRadixNumber 2 ['0', mark] rest position
    else decimal
  | _ => decimal
where
  decimal : Read :=
    let whole := text.takeWhile (isDigitOrSeparator 10)
    let rest := text.drop whole.length
    if rest.head? == some 'n' && !whole.isEmpty then
      finishNumber .bigInt (whole ++ ['n']) rest.tail position
    else if whole.head? == some '0' && whole.length > 1 &&
        whole.all (fun character => character == '_' || isOctalDigit character) then
      finishNumber .number whole rest position
    else if rest.head? == some '.' then
      let fraction := rest.tail.takeWhile (isDigitOrSeparator 10)
      readExponent (whole ++ '.' :: fraction) (rest.tail.drop fraction.length) position
    else readExponent whole rest position

/-- Reads a string whose opening quote has been read. A line end closes a string that
has no closing quote. -/
def readString (quote : Char) : Nat → List Char → Nat → List Char → Read
  | _, [], position, value => ⟨.string (String.ofList value.reverse), [], position⟩
  | skip + 1, _ :: rest, position, value => readString quote skip rest (position + 1) value
  | 0, character :: rest, position, value =>
    if character == quote then ⟨.string (String.ofList value.reverse), rest, position + 1⟩
    else if character == '\n' || character == '\r' then
      ⟨.string (String.ofList value.reverse), character :: rest, position⟩
    else if character == '\\' then
      match stringEscape false rest with
      | .ok (stands, length) =>
        readString quote length rest (position + 1) (stands.reverse ++ value)
      | .error error => .refuse error position
    else readString quote 0 rest (position + 1) (character :: value)

/-! ## One token -/

/-- Reads a sign: the longest one that the text starts with. The mark of an optional
chain is none before a digit. -/
def readSign (text : List Char) (position : Nat) : Option Read :=
  let found := Sign.all.find? fun sign => sign.spelling.toList.isPrefixOf text
  found.map fun sign =>
    let sign :=
      if sign == .optionalDot && ((text.drop 2).head?.map (·.isDigit)).getD false then .question
      else sign
    let length := sign.spelling.length
    ⟨.sign sign, text.drop length, position + length⟩

/-- Reads the token that the text starts with. -/
def readToken (text : List Char) (position : Nat) : Read :=
  match text with
  | [] => ⟨.eof, [], position⟩
  | character :: rest =>
    if Identifier.isStart character || character == '\\' then
      (readWord 0 text position [] true).refuseEscapedKeyword
    else if character.isDigit || (character == '.' && (rest.head?.map (·.isDigit)).getD false) then
      readNumber text position
    else if character == '\x22' || character == '\x27' then
      readString character 0 rest (position + 1) []
    else
      match readSign text position with
      | some read => read
      | none => .refuse (.unexpectedCharacter character) position

/-! ## Readings that the surrounding construct asks for -/

/-- Reads a regular expression whose opening slash has been read, up to its closing
slash. `inClass` says that a bracket is open and `escaped` that a backslash stands
before the next character. -/
def readRegExpBody : Bool → Bool → List Char → Nat → List Char → Read
  | _, _, [], position, _ => .refuse .unterminatedRegExp position
  | inClass, escaped, character :: rest, position, raw =>
    if isLineTerminator character then .refuse .unterminatedRegExp position
    else if escaped then readRegExpBody inClass false rest (position + 1) (character :: raw)
    else if character == '/' && !inClass then
      let flags := rest.takeWhile Identifier.isContinue
      ⟨.regExp (String.ofList (raw.reverse ++ '/' :: flags)), rest.drop flags.length,
        position + 1 + flags.length⟩
    else
      let inClass := character == '[' || (inClass && character != ']')
      readRegExpBody inClass (character == '\\') rest (position + 1) (character :: raw)

/-- A piece of a template: its text, whether the template ends after it or a
substitution starts, and the fault of an escape in it. -/
structure TemplatePiece where
  raw : String
  last : Bool
  fault : Option SyntaxError
  rest : List Char
  position : Nat
deriving Repr

/-- Reads a piece of a template, up to the backquote that closes the template or the
mark that opens a substitution. -/
def readTemplatePiece :
    Nat → Option SyntaxError → List Char → Nat → List Char → Except SyntaxError TemplatePiece
  | _, _, [], _, _ => .error .unterminatedTemplate
  | skip + 1, fault, character :: rest, position, raw =>
    readTemplatePiece skip fault rest (position + 1) (character :: raw)
  | 0, fault, character :: rest, position, raw =>
    if character == '\x60' then
      .ok ⟨String.ofList raw.reverse, true, fault, rest, position + 1⟩
    else if character == '$' && rest.head? == some '\x7b' then
      .ok ⟨String.ofList raw.reverse, false, fault, rest.tail, position + 2⟩
    else if character == '\\' then
      match stringEscape true rest with
      | .ok (_, length) => readTemplatePiece length fault rest (position + 1) (character :: raw)
      | .error error =>
        readTemplatePiece 1 (fault.or (some error)) rest (position + 1) (character :: raw)
    else readTemplatePiece 0 fault rest (position + 1) (character :: raw)

/-- Reads what stands between two markup tags: a run of text, or the sign that starts
a tag or an embedded expression. -/
def readMarkupChild (text : List Char) (position : Nat) : Read :=
  let run := text.takeWhile fun character => character != '<' && character != '\x7b'
  match text.drop run.length with
  | [] => .refuse .unterminatedMarkup position
  | character :: rest =>
    if run.isEmpty then
      ⟨.sign (if character == '<' then .less else .leftBrace), rest, position + 1⟩
    else ⟨.markupText (String.ofList run), character :: rest, position + run.length⟩

/-- Reads a name inside a markup tag, which may hold hyphens. -/
def readMarkupName (text : List Char) (position : Nat) : Read :=
  let name := text.takeWhile fun character => Identifier.isContinue character || character == '-'
  ⟨.word (String.ofList name) true, text.drop name.length, position + name.length⟩

/-- Reads a string inside a markup tag, whose opening quote has been read. It has no
escapes and may run over several lines. -/
def readMarkupString (quote : Char) (text : List Char) (position : Nat) : Read :=
  let value := text.takeWhile (· != quote)
  ⟨.string (String.ofList value), (text.drop value.length).tail, position + value.length + 1⟩

end SampleMethods.Script
