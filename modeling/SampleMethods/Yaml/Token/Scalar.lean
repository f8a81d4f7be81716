import SampleMethods.Yaml.Cursor
import SampleMethods.Yaml.Token

/-!
# Scalars of YAML documents

The three ways to write a scalar: plain, between quotes, and as a block below a
marker. In all of them line breaks may be folded: a single one becomes a blank,
and of several ones the first is dropped.
-/

set_option autoImplicit false

namespace SampleMethods.Yaml

/-! ## Folding -/

/-- The text of a scalar that has been read, and the white space behind it, which belongs to
the text only if more of it follows. All texts but `first` are reversed. -/
structure Folded where
  text : List Char
  /-- Blanks behind the text, in its line. -/
  blanks : List Char
  /-- Whether a line break follows the text. -/
  broken : Bool
  /-- The first line break. -/
  first : List Char
  /-- The further line breaks. -/
  others : List Char
deriving Repr

namespace Folded

/-- Nothing has been read. -/
def empty : Folded :=
  ⟨[], [], false, [], []⟩

/-- What joins two parts of a text that line breaks divide. -/
def fold (first others : List Char) : List Char :=
  if first.head? == some '\n' then if others.isEmpty then [' '] else others
  else others ++ first

/-- The text with the white space behind it. -/
def joined (folded : Folded) : List Char :=
  (if folded.broken then fold folded.first folded.others else folded.blanks) ++ folded.text

/-- More of the text. -/
def push (folded : Folded) (characters : List Char) : Folded :=
  ⟨characters.reverse ++ folded.joined, [], false, [], []⟩

/-- A blank. Those at the start of a line do not count. -/
def blank (folded : Folded) (character : Char) : Folded :=
  if folded.broken then folded else { folded with blanks := character :: folded.blanks }

/-- A line break. -/
def lineBreak (folded : Folded) (text : List Char) : Folded :=
  if folded.broken then { folded with others := text.reverse ++ folded.others }
  else { folded with broken := true, first := text, blanks := [] }

/-- A line break that leaves no trace. -/
def hiddenBreak (folded : Folded) : Folded :=
  ⟨folded.joined, [], true, [], []⟩

end Folded

/-! ## Plain scalars -/

/-- Whether a plain scalar ends in front of the text. `flow` says whether it is in a flow
collection. -/
def endsPlain (flow : Bool) : List Char → Bool
  | [] => true
  | ':' :: rest => isGap rest
  | character :: _ => flow && [',', '[', ']', '\x7b', '\x7d'].contains character

/-- Whether the text starts with a colon that a plain scalar of a flow collection may not
have. -/
def isStuckColon : List Char → Bool
  | ':' :: character :: _ => [',', '?', '[', ']', '\x7b', '\x7d'].contains character
  | _ => false

/-- Reads on in a plain scalar, whose lines have to be indented by so many columns. Gives the
text and the place where it ends. -/
def readPlain (flow : Bool) (indent : Int) (start : Mark) :
    Nat → Mark → Folded → Scan (Folded × Mark)
  | 0, stop, folded => return (folded, stop)
  | rounds + 1, stop, folded => do
    let cursor ← get
    match cursor.rest with
    | [] => return (folded, stop)
    | character :: _ =>
      if isSpace character then
        if folded.broken && character == '\t' && cursor.mark.column < indent then
          Scan.fail .plainScalar start .tabInPlainScalar
        Scan.drop 1
        readPlain flow indent start rounds stop (folded.blank character)
      else if isBreak character then
        let text ← Scan.lineBreak
        readPlain flow indent start rounds stop (folded.lineBreak text)
      else
        let inGap := folded.broken || !folded.blanks.isEmpty
        if inGap && (!flow && cursor.mark.column < indent || cursor.atDocumentMarker ||
            character == '#') then
          return (folded, stop)
        if flow && isStuckColon cursor.rest then
          Scan.fail .plainScalar start .unexpectedColon
        if endsPlain flow cursor.rest then
          return (folded, stop)
        Scan.drop 1
        readPlain flow indent start rounds (← Scan.mark) (folded.push [character])

/-- Reads a plain scalar. Tells besides whether a line break follows it. -/
def plainScalar (flow : Bool) (indent : Int) : Scan (Token × Bool) := do
  let start ← Scan.mark
  let (folded, stop) ←
    readPlain flow indent start ((← Scan.rest).length + 1) start Folded.empty
  return (⟨.scalar (String.ofList folded.text.reverse) true, start, stop⟩, folded.broken)

/-! ## Quoted scalars -/

/-- The character that an escape of one letter stands for. -/
def escaped? : Char → Option Char
  | '0' => some '\x00'
  | 'a' => some '\x07'
  | 'b' => some '\x08'
  | 't' => some '\t'
  | '\t' => some '\t'
  | 'n' => some '\n'
  | 'v' => some '\x0b'
  | 'f' => some '\x0c'
  | 'r' => some '\r'
  | 'e' => some '\x1b'
  | ' ' => some ' '
  | '"' => some '"'
  | '/' => some '/'
  | '\\' => some '\\'
  | 'N' => some '\x85'
  | '_' => some '\xa0'
  | 'L' => some '\u2028'
  | 'P' => some '\u2029'
  | _ => none

/-- The number of digits of an escape by code point. -/
def escapeLength? : Char → Option Nat
  | 'x' => some 2
  | 'u' => some 4
  | 'U' => some 8
  | _ => none

/-- Reads what follows the backslash of an escape, the backslash included. -/
def escape (start : Mark) : Scan Char := do
  let letter := (← Scan.rest).tail.head?
  match letter.bind escaped?, letter.bind escapeLength? with
  | some character, _ =>
    Scan.drop 2
    return character
  | none, some length =>
    Scan.drop 2
    let digits := (← Scan.rest).take length
    if digits.length < length || !digits.all isHexDigit then
      Scan.fail .quotedCharacter start .missingHexadecimal
    let code := hexNumber digits
    if (0xD800 ≤ code && code ≤ 0xDFFF) || 0x10FFFF < code then
      Scan.fail .quotedCharacter start .badCodePoint
    Scan.drop length
    return Char.ofNat code
  | none, none => Scan.fail .quotedCharacter start .unknownEscape

/-- Reads on in a quoted scalar up to its end. -/
def readQuoted (quote : Char) (start : Mark) : Nat → Folded → Scan Folded
  | 0, folded => return folded
  | rounds + 1, folded => do
    let cursor ← get
    if cursor.atDocumentMarker then
      Scan.fail .quotedScalar start .documentIndicator
    match cursor.rest with
    | [] => Scan.fail .quotedScalar start .endOfText
    | character :: rest =>
      if isSpace character then
        Scan.drop 1
        readQuoted quote start rounds (folded.blank character)
      else if isBreak character then
        let text ← Scan.lineBreak
        readQuoted quote start rounds (folded.lineBreak text)
      else if character == quote then
        if quote == '\'' && rest.head? == some quote then
          Scan.drop 2
          readQuoted quote start rounds (folded.push [quote])
        else
          Scan.drop 1
          return folded
      else if quote == '"' && character == '\\' then
        if rest.head?.any isBreak then
          Scan.drop 1
          discard Scan.lineBreak
          readQuoted quote start rounds folded.hiddenBreak
        else
          let character ← escape start
          readQuoted quote start rounds (folded.push [character])
      else
        Scan.drop 1
        readQuoted quote start rounds (folded.push [character])

/-- Reads a quoted scalar. -/
def quotedScalar (quote : Char) : Scan Token := do
  let start ← Scan.mark
  Scan.drop 1
  let folded ← readQuoted quote start ((← Scan.rest).length + 1) Folded.empty
  return ⟨.scalar (String.ofList folded.joined.reverse) false, start, ← Scan.mark⟩

/-! ## Block scalars -/

/-- What happens to the line breaks at the end of a block scalar. -/
inductive Chomping where
  | strip
  | clip
  | keep
deriving DecidableEq, Repr

/-- Reads how the line breaks at the end are treated, if it is said. -/
def chomping? : Scan (Option Chomping) := do
  if ← Scan.sees '+' then
    Scan.drop 1
    return some .keep
  else if ← Scan.sees '-' then
    Scan.drop 1
    return some .strip
  else return none

/-- Reads by how much the lines are indented, if it is said. -/
def increment? (start : Mark) : Scan (Option Nat) := do
  match (← Scan.rest).head? with
  | some digit =>
    if digit == '0' then
      Scan.fail .blockScalar start .zeroIndentation
    else if digit.isDigit then
      Scan.drop 1
      return some (hexValue digit)
    else return none
  | none => return none

/-- Reads the header of a block scalar behind its marker: the two things that may be said come
in any order. -/
def blockHeader (start : Mark) : Scan (Chomping × Option Nat) := do
  match ← chomping? with
  | some chomping => return (chomping, ← increment? start)
  | none =>
    let increment ← increment? start
    if increment.isNone then
      return (.clip, none)
    return ((← chomping?).getD .clip, increment)

/-- Reads the empty lines in front of a line of a block scalar, and the indentation of that
line. `widest` is the widest indentation of an empty line so far. Gives the line breaks,
reversed, the place behind them and the widest indentation. -/
def readEmptyLines (indent : Option Nat) (start : Mark) :
    Nat → Nat → List Char → Mark → Scan (List Char × Mark × Nat)
  | 0, widest, breaks, stop => return (breaks, stop, widest)
  | rounds + 1, widest, breaks, stop => do
    let cursor ← get
    let width := (cursor.rest.takeWhile (· == ' ')).length
    Scan.drop (match indent with
      | some indent => min width (indent - cursor.mark.column)
      | none => width)
    let cursor ← get
    let column := cursor.mark.column
    if cursor.startsWith '\t' && indent.all (fun indent => column < indent) then
      Scan.fail .blockScalar start .tabInBlockScalar
    let widest := max widest column
    if cursor.atBreak then
      let text ← Scan.lineBreak
      readEmptyLines indent start rounds widest (text.reverse ++ breaks) (← Scan.mark)
    else return (breaks, stop, widest)

/-- The empty lines at the cursor and the place behind them. -/
def emptyLines (indent : Option Nat) (start : Mark) : Scan (List Char × Mark × Nat) := do
  readEmptyLines indent start ((← Scan.rest).length + 1) 0 [] (← Scan.mark)

/-- A block scalar that has been read so far. The texts are reversed. -/
structure BlockText where
  text : List Char
  /-- The line break behind the last line. -/
  last : List Char
  /-- The empty lines behind it. -/
  others : List Char
  /-- Whether the last line starts with a blank. -/
  blankStart : Bool
  stop : Mark
deriving Repr

/-- The text that joins a line of a block scalar to the ones before it, reversed. Lines of a
folded one are joined by a blank, unless one of them starts with a blank. -/
def BlockText.joint (block : BlockText) (literal blankStart : Bool) : List Char :=
  if !literal && block.last == ['\n'] && !block.blankStart && !blankStart then
    if block.others.isEmpty then [' '] else block.others
  else block.others ++ block.last

/-- Reads the lines of a block scalar with the indentation. -/
def readBlock (literal : Bool) (indent : Nat) (start : Mark) : Nat → BlockText → Scan BlockText
  | 0, block => return block
  | rounds + 1, block => do
    let cursor ← get
    if cursor.mark.column == indent && !cursor.rest.isEmpty then
      let blankStart := cursor.rest.head?.any isSpace
      let line ← Scan.span fun character => !isBreak character
      let last ← Scan.lineBreak
      let (others, stop, _) ← emptyLines (some indent) start
      readBlock literal indent start rounds
        ⟨line.reverse ++ block.joint literal blankStart ++ block.text, last, others, blankStart,
          stop⟩
    else return block

/-- Reads a block scalar, which is in a block that is indented by so many columns. -/
def blockScalar (literal : Bool) (parent : Int) : Scan Token := do
  let start ← Scan.mark
  Scan.drop 1
  let (chomping, increment) ← blockHeader start
  Scan.skip isSpace
  Scan.comment
  unless (← get).atLineEnd do
    Scan.fail .blockScalar start .headerContinues
  discard Scan.lineBreak
  let given := increment.map fun increment => (max parent 0).toNat + increment
  let (others, stop, widest) ← emptyLines given start
  let indent := given.getD (max (max widest (parent + 1).toNat) 1)
  let block ← readBlock literal indent start ((← Scan.rest).length + 1)
    ⟨[], [], others, false, stop⟩
  let ending :=
    match chomping with
    | .strip => []
    | .clip => block.last
    | .keep => block.others ++ block.last
  return ⟨.scalar (String.ofList (ending ++ block.text).reverse) false, start, block.stop⟩

end SampleMethods.Yaml
