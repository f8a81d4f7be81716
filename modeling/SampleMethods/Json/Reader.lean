import SampleMethods.Json.Error
import SampleMethods.Text.Hex

/-!
# Reading JSON text

A reader goes through a text with a cursor that knows its line and the number
of bytes in it. Readers of values of a wanted form are built from the readers
here; `value` reads any value at all.

An error of form is found without a place and gets one from the reader around
it, after that reader has tried to go over its closing bracket. `placed` and
`enclosed` do that, and so the places of such errors come out as they do.
-/

set_option autoImplicit false

namespace SampleMethods.Json

/-- The place in a text that a reader has come to. -/
structure Cursor where
  rest : List Char
  place : Place
  /-- How many brackets may still be opened. -/
  depth : Nat
deriving Repr

/-- The place behind a character. `bytes` counts the bytes to go on in a line. -/
def Place.behind (place : Place) (character : Char) (bytes : Nat) : Place :=
  if character == '\n' then ⟨place.line + 1, 0⟩ else ⟨place.line, place.column + bytes⟩

/-- A reader of a part of a document. -/
abbrev Reader := EStateM Error Cursor

namespace Reader

/-- Puts another cursor in the place of the present one. -/
def moveTo (cursor : Cursor) : Reader Unit :=
  set cursor

/-- The next character. -/
def peek : Reader (Option Char) :=
  return (← get).rest.head?

/-- Goes over the next character. -/
def skip : Reader Unit :=
  modify fun cursor =>
    match cursor.rest with
    | [] => cursor
    | character :: rest =>
      { cursor with rest := rest, place := cursor.place.behind character character.utf8Size }

/-- Goes over the next character and gives it. -/
def next : Reader (Option Char) := do
  let character ← peek
  skip
  return character

/-- Fails at the present place. -/
def fail {α : Type} (cause : Cause) : Reader α := do
  throw ⟨cause, some (← get).place⟩

/-- Fails at the next character. -/
def failAtNext {α : Type} (cause : Cause) : Reader α := do
  let cursor ← get
  match cursor.rest with
  | [] => throw ⟨cause, some cursor.place⟩
  | character :: _ => throw ⟨cause, some (cursor.place.behind character 1)⟩

/-- Fails without a place. -/
def failUnplaced {α : Type} (cause : Cause) : Reader α :=
  throw ⟨cause, none⟩

/-- Runs a reader and gives its failure as a result. -/
def recover {α : Type} (reader : Reader α) : Reader (Except Error α) :=
  fun cursor =>
    match reader cursor with
    | .ok value after => .ok (.ok value) after
    | .error error after => .ok (.error error) after

/-- The result, or the failure with the present place if it has none. -/
def settle {α : Type} (result : Except Error α) : Reader α :=
  match result with
  | .ok value => return value
  | .error error => do
    let cursor ← get
    throw ⟨error.cause, error.place.or (some cursor.place)⟩

/-- Runs a reader and gives a failure without a place the place that the reader came to. -/
def placed {α : Type} (reader : Reader α) : Reader α := do
  settle (← recover reader)

/-! ## Blanks -/

/-- Whether a character may stand between the parts of a document. -/
def isBlank (character : Char) : Bool :=
  character == ' ' || character == '\n' || character == '\t' || character == '\r'

/-- The cursor behind the blanks. -/
def behindBlanks (depth : Nat) : List Char → Place → Cursor
  | [], place => ⟨[], place, depth⟩
  | character :: rest, place =>
    if isBlank character then behindBlanks depth rest (place.behind character 1)
    else ⟨character :: rest, place, depth⟩

/-- Goes over blanks and gives the character behind them. -/
def nextVisible : Reader (Option Char) := do
  modify fun cursor => behindBlanks cursor.depth cursor.rest cursor.place
  peek

/-! ## Words -/

/-- Goes over the characters, which have to come next. -/
def word : List Char → Reader Unit
  | [] => return
  | wanted :: others => do
    match ← next with
    | none => fail .endInValue
    | some character =>
      if character == wanted then word others else fail .unknownWord

/-! ## Numbers -/

/-- Whether a character is a decimal digit. -/
def isDigit (character : Char) : Bool :=
  character.isDigit

/-- Whether the next character is a decimal digit. -/
def isAtDigit : Reader Bool :=
  return ((← peek).map isDigit).getD false

/-- Goes over decimal digits and gives them. -/
def digits : Reader (List Char) := do
  let cursor ← get
  let run := cursor.rest.takeWhile isDigit
  moveTo { cursor with
    rest := cursor.rest.drop run.length,
    place := ⟨cursor.place.line, cursor.place.column + run.length⟩ }
  return run

/-- The number that decimal digits write. -/
def valueOf (digits : List Char) : Nat :=
  digits.foldl (fun value digit => value * 10 + (digit.toNat - 48)) 0

/-- The number that digits, with a fraction and an exponent, write. -/
def fraction (negative : Bool) (digits : List Char) (exponent : Int) : Reader Number :=
  match Double.ofDecimal? negative ⟨valueOf digits, exponent⟩ with
  | some value => return .fraction value
  | none => fail .numberOutOfRange

/-- Reads an exponent, whose mark is the next character, as the end of a number. -/
def exponent (negative : Bool) (significant : List Char) (scale : Int) : Reader Number := do
  skip
  let falls ←
    match ← peek with
    | some '+' =>
      skip
      pure false
    | some '-' =>
      skip
      pure true
    | _ => pure false
  match ← next with
  | none => fail .endInValue
  | some first =>
    unless isDigit first do
      fail .badNumber
    let size : Int := valueOf (first :: (← digits))
    fraction negative significant (scale + if falls then -size else size)

/-- Reads the digits behind a point, which is the next character, and an exponent. -/
def decimals (negative : Bool) (whole : List Char) : Reader Number := do
  skip
  let places ← digits
  if places.isEmpty then
    match ← peek with
    | some _ => failAtNext .badNumber
    | none => failAtNext .endInValue
  let scale : Int := -places.length
  match ← peek with
  | some 'e' | some 'E' => exponent negative (whole ++ places) scale
  | _ => fraction negative (whole ++ places) scale

/-- The whole number that digits write. One that does not fit into 64 bits loses its last
digits, and so does zero with a sign. -/
def wholeNumber (negative : Bool) (digits : List Char) : Reader Number :=
  let value := valueOf digits
  if !negative && value < Nat.pow 2 64 then return .natural value
  else if negative && 0 < value && value ≤ Nat.pow 2 63 then return .negative value
  else fraction negative digits 0

/-- Reads a number without its sign. -/
def unsigned (negative : Bool) : Reader Number := do
  match ← next with
  | none => fail .endInValue
  | some first =>
    unless isDigit first do
      fail .badNumber
    if first == '0' && (← isAtDigit) then
      failAtNext .badNumber
    let whole := first :: (← if first == '0' then pure [] else digits)
    match ← peek with
    | some '.' => decimals negative whole
    | some 'e' | some 'E' => exponent negative whole 0
    | _ => wholeNumber negative whole

/-- Reads a number. -/
def number : Reader Number := do
  if (← peek) == some '-' then
    skip
    unsigned true
  else
    unsigned false

/-! ## Strings -/

/-- Reads four hexadecimal digits. -/
def hexFour : Reader Nat := do
  let cursor ← get
  let bytes := (cursor.rest.take 4).foldl (fun sum character => sum + character.utf8Size) 0
  if bytes < 4 then
    moveTo { cursor with
      rest := [],
      place := cursor.rest.foldl (fun place character => place.behind character character.utf8Size)
        cursor.place }
    fail .endInString
  match cursor.rest with
  | [first, second, third, fourth] | first :: second :: third :: fourth :: _ =>
    match Text.hexDigit? first, Text.hexDigit? second, Text.hexDigit? third,
      Text.hexDigit? fourth with
    | some first, some second, some third, some fourth =>
      skip; skip; skip; skip
      return ((first * 16 + second) * 16 + third) * 16 + fourth
    | _, _, _, _ =>
      throw ⟨.badEscape, some ⟨cursor.place.line, cursor.place.column + 4⟩⟩
  | _ => throw ⟨.badEscape, some ⟨cursor.place.line, cursor.place.column + 4⟩⟩

/-- Goes over a character of the second half of a surrogate pair, which has to be there. -/
def pairMark (wanted : Char) : Reader Unit := do
  match ← peek with
  | none => fail .endInString
  | some character =>
    skip
    unless character == wanted do
      fail .unfinishedSurrogate

/-- Reads an escape by its code point, behind its `u`. Surrogates have to come in pairs. -/
def codePoint : Reader Char := do
  let first ← hexFour
  if 0xDC00 ≤ first && first ≤ 0xDFFF then
    fail .loneSurrogate
  if first < 0xD800 || 0xDBFF < first then
    return Char.ofNat first
  pairMark '\\'
  pairMark 'u'
  let second ← hexFour
  if second < 0xDC00 || 0xDFFF < second then
    fail .loneSurrogate
  return Char.ofNat ((first - 0xD800) * 0x400 + (second - 0xDC00) + 0x10000)

/-- Reads an escape behind its backslash. -/
def escape : Reader Char := do
  match ← next with
  | none => fail .endInString
  | some '"' => return '"'
  | some '\\' => return '\\'
  | some '/' => return '/'
  | some 'b' => return Char.ofNat 8
  | some 'f' => return Char.ofNat 12
  | some 'n' => return '\n'
  | some 'r' => return '\r'
  | some 't' => return '\t'
  | some 'u' => codePoint
  | some _ => fail .badEscape

/-- Reads the characters of a string and its closing quote. `rounds` bounds their number,
and `read` holds those before, the last one first. -/
def stringTail : Nat → List Char → Reader String
  | 0, _ => fail .endInString
  | rounds + 1, read => do
    match ← next with
    | none => fail .endInString
    | some '"' => return String.ofList read.reverse
    | some '\\' => stringTail rounds ((← escape) :: read)
    | some character =>
      if character.toNat < 0x20 then
        fail .controlCharacter
      stringTail rounds (character :: read)

/-- Reads a string, whose opening quote is the next character. -/
def string : Reader String := do
  skip
  stringTail ((← get).rest.length + 1) []

/-! ## Brackets -/

/-- Runs a reader with one more bracket open. -/
def deeper {α : Type} (reader : Reader α) : Reader α := do
  let depth := (← get).depth
  if depth ≤ 1 then
    failAtNext .tooDeep
  modify fun cursor => { cursor with depth := depth - 1 }
  let result ← recover reader
  modify fun cursor => { cursor with depth := depth }
  settleAsIs result
where
  /-- The result, or the failure as it is. -/
  settleAsIs {α : Type} (result : Except Error α) : Reader α :=
    match result with
    | .ok value => return value
    | .error error => throw error

/-- Goes over the end of a list. -/
def listEnd : Reader Unit := do
  match ← nextVisible with
  | none => failAtNext .endInList
  | some ']' => skip
  | some ',' =>
    skip
    if (← nextVisible) == some ']' then failAtNext .trailingComma
    else failAtNext .trailingCharacters
  | some _ => failAtNext .trailingCharacters

/-- Goes over the end of an object. -/
def objectEnd : Reader Unit := do
  match ← nextVisible with
  | none => failAtNext .endInObject
  | some '\x7d' => skip
  | some ',' => failAtNext .trailingComma
  | some _ => failAtNext .trailingCharacters

/-- Reads what stands in brackets, whose opening bracket is the next character. The end is
tried even when the reading has failed. -/
def enclosed {α : Type} (body : Reader α) (close : Reader Unit) : Reader α := do
  let result ← recover (deeper (do skip; body))
  let closed ← recover close
  match result, closed with
  | .ok value, .ok () => return value
  | .ok _, .error error => settle (.error error)
  | .error error, _ => settle (.error error)

/-- Whether another element of a list comes next. `first` says that none has been read. -/
def hasElement (first : Bool) : Reader Bool := do
  match ← nextVisible with
  | none => failAtNext .endInList
  | some ']' => return false
  | some character =>
    if first then
      return true
    unless character == ',' do
      failAtNext .missingListComma
    skip
    match ← nextVisible with
    | none => failAtNext .endInValue
    | some ']' => failAtNext .trailingComma
    | some _ => return true

/-- Whether another member of an object comes next. `first` says that none has been
read. -/
def hasMember (first : Bool) : Reader Bool := do
  match ← nextVisible with
  | none => failAtNext .endInObject
  | some '\x7d' => return false
  | some character =>
    let character ←
      if first then
        pure (some character)
      else
        unless character == ',' do
          failAtNext .missingObjectComma
        skip
        nextVisible
    match character with
    | none => failAtNext .endInValue
    | some '"' => return true
    | some '\x7d' => failAtNext .trailingComma
    | some _ => failAtNext .keyNotString

/-- Goes over the colon behind the name of a member. -/
def colon : Reader Unit := do
  match ← nextVisible with
  | none => failAtNext .endInObject
  | some ':' => skip
  | some _ => failAtNext .missingColon

/-- Reads the elements of a list behind its opening bracket. -/
def elementsUpTo {α : Type} (element : Reader α) : Nat → Bool → Reader (List α)
  | 0, _ => fail .endInList
  | rounds + 1, first => do
    if ← hasElement first then
      let value ← element
      return value :: (← elementsUpTo element rounds false)
    else
      return []

/-- Reads the elements of a list behind its opening bracket. -/
def elements {α : Type} (element : Reader α) : Reader (List α) := do
  elementsUpTo element ((← get).rest.length + 1) true

/-- Reads the members of an object behind its opening brace. -/
def membersUpTo {α : Type} (value : Reader α) : Nat → Bool → Reader (List (String × α))
  | 0, _ => fail .endInObject
  | rounds + 1, first => do
    if ← hasMember first then
      let name ← string
      colon
      let read ← value
      return (name, read) :: (← membersUpTo value rounds false)
    else
      return []

/-- Reads the members of an object behind its opening brace. -/
def members {α : Type} (value : Reader α) : Reader (List (String × α)) := do
  membersUpTo value ((← get).rest.length + 1) true

/-! ## Values -/

/-- Reads any value whose brackets are nested at most so deeply. -/
def valueUpTo : Nat → Reader Json
  | 0 => fail .tooDeep
  | rounds + 1 => do
    match ← nextVisible with
    | none => failAtNext .endInValue
    | some 'n' =>
      skip
      word "ull".toList
      return .null
    | some 't' =>
      skip
      word "rue".toList
      return .bool true
    | some 'f' =>
      skip
      word "alse".toList
      return .bool false
    | some '"' => return .string (← string)
    | some '[' => return .array (← enclosed (elements (valueUpTo rounds)) listEnd)
    | some '\x7b' => return .ofMembers (← enclosed (members (valueUpTo rounds)) objectEnd)
    | some character =>
      if character == '-' || isDigit character then
        return .number (← number)
      else
        failAtNext .missingValue

/-- Reads any value. -/
def value : Reader Json := do
  valueUpTo (← get).depth

/-- Goes over the end of a document. -/
def documentEnd : Reader Unit := do
  match ← nextVisible with
  | none => return
  | some _ => failAtNext .trailingCharacters

/-- Reads a whole document. Brackets may be nested 127 deep. -/
def run {α : Type} (reader : Reader α) (text : String) : Except Error α :=
  let document : Reader α := do
    let result ← reader
    documentEnd
    return result
  match document ⟨text.toList, ⟨1, 0⟩, 128⟩ with
  | .ok result _ => .ok result
  | .error error _ => .error error

end Reader

/-- The value that a document holds. -/
def parse (text : String) : Except Error Json :=
  Reader.value.run text

end SampleMethods.Json
