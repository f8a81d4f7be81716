import SampleMethods.Text.Split
import SampleMethods.Yaml.Cursor
import SampleMethods.Yaml.Scalar

/-!
# Printing YAML values

A value as a document, with one item or entry to a line. A sequence that is the
value of a key is not indented by more than the key, and collections without
items are written in brackets.

A text is written plain where that reads back as the text, between quotes where
it does not, and as a block where it has line breaks.
-/

set_option autoImplicit false

namespace SampleMethods.Yaml

/-! ## Pages -/

/-- What has been printed, reversed, and what matters about its end. -/
structure Page where
  text : List Char
  column : Nat
  /-- Whether the text ends with white space. -/
  blank : Bool
  /-- Whether there is only indentation and signs of items in the line. -/
  fresh : Bool
deriving Repr

namespace Page

/-- An empty page. -/
def empty : Page :=
  ⟨[], 0, true, true⟩

/-- The page with more text in its line. -/
def write (page : Page) (text : List Char) : Page :=
  { page with text := text.reverse ++ page.text, column := page.column + text.length }

/-- The page with a line break. -/
def lineBreak (page : Page) (character : Char) : Page :=
  { page with text := character :: page.text, column := 0 }

/-- The page with a blank at its end, if it has none. -/
def space (page : Page) : Page :=
  if page.blank then page else page.write [' ']

/-- The page with a sign. `apart` says whether it needs a blank in front of it, `opens` whether
it stands for one, and `item` whether more may start in the line behind it. -/
def sign (page : Page) (text : List Char) (apart opens item : Bool) : Page :=
  let page := (if apart then page.space else page).write text
  { page with blank := opens, fresh := page.fresh && item }

/-- The page with text that nothing may start behind. -/
def close (page : Page) (text : List Char) : Page :=
  page.sign text false false false

/-- The page at the start of a line with the indentation. -/
def indent (page : Page) (width : Int) : Page :=
  let width := width.toNat
  let page :=
    if !page.fresh || width < page.column || (page.column == width && !page.blank) then
      page.lineBreak '\n'
    else page
  let page := page.write (List.replicate (width - page.column) ' ')
  { page with blank := true, fresh := true }

end Page

/-- The indentation of what is in a block with an indentation. -/
def indentWithin (indent : Int) : Int :=
  if indent < 0 then 0 else indent + 2

/-! ## Texts -/

/-- How a text is written. -/
inductive Style where
  | plain
  | singleQuoted
  | doubleQuoted
  | literal
deriving DecidableEq, Repr

/-- Whether a character can be seen, so that it is written as it is. -/
def isPrintable (character : Char) : Bool :=
  let code := character.toNat
  code == 0x0A || (0x20 ≤ code && code ≤ 0x7E) ||
    (0xA0 ≤ code && code ≤ 0xFFFD && code != 0xFEFF)

/-- Whether a text may not be plain in a block because of its start. -/
def hasBadStart : List Char → Bool
  | [] => false
  | '-' :: '-' :: '-' :: _ => true
  | '.' :: '.' :: '.' :: _ => true
  | character :: rest =>
    "#,[]\x7b\x7d&*!|>'\"%@\x60".toList.contains character ||
      (['?', ':', '-'].contains character && isGap rest)

/-- Whether a colon in the text ends a plain scalar, or a number sign starts a comment. -/
def hasBadInside : List Char → Bool
  | first :: second :: rest =>
    (second == ':' && isGap rest) || (second == '#' && isGap [first]) ||
      hasBadInside (second :: rest)
  | _ => false

/-- Whether two characters of certain kinds stand side by side in a text. -/
def hasPair (isFirst isSecond : Char → Bool) : List Char → Bool
  | first :: second :: rest =>
    (isFirst first && isSecond second) || hasPair isFirst isSecond (second :: rest)
  | _ => false

/-- Whether a text can be written with double quotes only: it has characters that cannot be
seen, or blanks in front of a line break. -/
def needsEscapes (text : List Char) : Bool :=
  text.any (fun character => !isPrintable character) || hasPair (· == ' ') isBreak text

/-- Whether a text may be written plain in a block. -/
def mayBePlain (text : List Char) : Bool :=
  let isEdge (character : Option Char) := character.any (· == ' ')
  !(needsEscapes text || text.any isBreak || isEdge text.head? || isEdge text.getLast? ||
    hasBadStart text || hasBadInside text)

/-- Whether a text may be written with single quotes. -/
def mayBeSingleQuoted (text : List Char) : Bool :=
  !(needsEscapes text || hasPair isBreak (· == ' ') text)

/-- Whether a text may be written as a block. -/
def mayBeLiteral (text : List Char) : Bool :=
  !(text.isEmpty || needsEscapes text || text.getLast?.any (· == ' '))

/-- Words that some readers take for truth values. -/
def truthWords : List String :=
  ["y", "Y", "yes", "Yes", "YES", "n", "N", "no", "No", "NO", "true", "True", "TRUE", "false",
   "False", "FALSE", "on", "On", "ON", "off", "Off", "OFF"]

/-- Whether a text written plain would stand for something else. -/
def isMisread (text : String) : Bool :=
  truthWords.contains text || Scalar.isPadded text.toList ||
    match Scalar.plain text with
    | .ok (.string _) => false
    | _ => true

/-- The style of a text. `key` says whether it is written in front of a colon. -/
def styleOf (text : String) (key : Bool) : Style :=
  let characters := text.toList
  if !truthWords.contains text && characters.contains '\n' then
    if mayBeLiteral characters && !key then .literal else .doubleQuoted
  else if !isMisread text && mayBePlain characters then .plain
  else if mayBeSingleQuoted characters then .singleQuoted
  else .doubleQuoted

/-- The digits of a number in base sixteen, so many of them. -/
def hexadecimal (length number : Nat) : List Char :=
  let digits := (Nat.toDigits 16 number).map Char.toUpper
  List.replicate (length - digits.length) '0' ++ digits

/-- A character between double quotes. -/
def quoteCharacter (character : Char) : List Char :=
  let code := character.toNat
  if isPrintable character && !isBreak character && character != '"' && character != '\\' then
    [character]
  else
    '\\' ::
      match code with
      | 0x00 => ['0']
      | 0x07 => ['a']
      | 0x08 => ['b']
      | 0x09 => ['t']
      | 0x0A => ['n']
      | 0x0B => ['v']
      | 0x0C => ['f']
      | 0x0D => ['r']
      | 0x1B => ['e']
      | 0x22 => ['"']
      | 0x5C => ['\\']
      | 0x85 => ['N']
      | 0xA0 => ['_']
      | 0x2028 => ['L']
      | 0x2029 => ['P']
      | _ =>
        if code ≤ 0xFF then 'x' :: hexadecimal 2 code
        else if code ≤ 0xFFFF then 'u' :: hexadecimal 4 code
        else 'U' :: hexadecimal 8 code

/-- The page with a text between double quotes. -/
def Page.doubleQuoted (page : Page) (text : List Char) : Page :=
  ((page.sign ['"'] true false false).write (text.flatMap quoteCharacter)).close ['"']

/-- The page with the characters of a text with single quotes. `broken` says whether a line
break comes before them. -/
def Page.singleQuotedPart (indent : Int) : Bool → List Char → Page → Page
  | broken, [], page => if broken then page.indent indent else page
  | broken, character :: rest, page =>
    if character == ' ' then singleQuotedPart indent broken rest (page.write [' '])
    else if isBreak character then
      let page := if !broken && character == '\n' then page.lineBreak '\n' else page
      singleQuotedPart indent true rest { page.lineBreak character with fresh := true }
    else
      let page := if broken then page.indent indent else page
      let page := page.write (if character == '\'' then ['\'', '\''] else [character])
      singleQuotedPart indent false rest { page with fresh := false }

/-- The page with a text between single quotes. -/
def Page.singleQuoted (page : Page) (indent : Int) (text : List Char) : Page :=
  (singleQuotedPart indent false text (page.sign ['\''] true false false)).close ['\'']

/-- What a block says in front of its first line: its indentation, if the first line does not
show it, and what happens to the line breaks at the end. -/
def blockHint (text : List Char) : List Char :=
  (if text.head?.any (fun character => character == ' ' || isBreak character) then ['2'] else []) ++
    match text.reverse with
    | [] => ['-']
    | last :: others =>
      if !isBreak last then ['-']
      else if others.head?.all isBreak then ['+']
      else []

/-- The page with the lines of a block. `broken` says whether a line break comes before
them. -/
def Page.literalPart (indent : Int) : Bool → List Char → Page → Page
  | _, [], page => page
  | broken, character :: rest, page =>
    if isBreak character then
      literalPart indent true rest { page.lineBreak character with fresh := true }
    else
      let page := (if broken then page.indent indent else page).write [character]
      literalPart indent false rest { page with fresh := false }

/-- The page with a text as a block. -/
def Page.literal (page : Page) (indent : Int) (text : List Char) : Page :=
  let page := ((page.sign ['|'] true false false).close (blockHint text)).lineBreak '\n'
  literalPart indent true text { page with blank := true, fresh := true }

/-- The page with a plain text. -/
def Page.plain (page : Page) (text : List Char) : Page :=
  { page.space.write text with blank := false, fresh := false }

/-- The page with a text in a style. -/
def Page.scalar (page : Page) (indent : Int) (style : Style) (text : List Char) : Page :=
  let inside := if indent < 0 then 2 else indent + 2
  match style with
  | .plain => page.plain text
  | .singleQuoted => page.singleQuoted inside text
  | .doubleQuoted => page.doubleQuoted text
  | .literal => page.literal inside text

/-! ## Tags -/

/-- Whether a tag may hold a character as it is. -/
def isTagCharacter (character : Char) : Bool :=
  isWord character || ";/?:@&=+$,.~*'()[]".toList.contains character

/-- The text of a tag, with octets for what it may not hold. -/
def tagText (text : List Char) : List Char :=
  text.flatMap fun character =>
    if isTagCharacter character then [character]
    else
      (String.ofList [character]).toUTF8.toList.flatMap fun octet =>
        '%' :: hexadecimal 2 octet.toNat

/-- A tag with its exclamation mark. -/
def fullTag (tag : String) : List Char :=
  match (bareTag tag).toList with
  | '!' :: rest => '!' :: rest
  | text => '!' :: text

/-- The page with a tag. -/
def Page.tag (page : Page) (tag : String) : Page :=
  match fullTag tag with
  | ['!'] =>
    ((page.sign "!<".toList true false false).close (tagText ['!'])).close ['>']
  | text => page.space.close ('!' :: tagText (text.drop 1))

/-! ## Values -/

/-- The text of a scalar. -/
def scalarText? : Yaml → Option String
  | .null => some "null"
  | .bool value => some (if value then "true" else "false")
  | .number value => some value.render
  | .string text => some text
  | _ => none

/-- The number of bytes that a key may have in front of its colon without a sign of its own. -/
def keyLengthLimit : Nat := 128

/-- The number of bytes of a key that fits in front of its colon, or nothing for one that does
not. -/
def keyLength? : Yaml → Option Nat
  | .tagged tag value =>
    (keyLength? value).map fun length => (String.ofList (fullTag tag)).utf8ByteSize + length
  | .sequence items => if items.isEmpty then some 0 else none
  | .mapping entries => if entries.isEmpty then some 0 else none
  | value =>
    match scalarText? value with
    | some text => if text.toList.any isBreak then none else some text.utf8ByteSize
    | none => none

/-- Whether a key is written without a sign in front of it. -/
def isSimpleKey (key : Yaml) : Bool :=
  (keyLength? key).any fun length => length ≤ keyLengthLimit

mutual

/-- The page with a value. `entry` says whether it belongs to an entry of a mapping, and `key`
whether it is in front of a colon. -/
def Page.value (indent : Int) (entry key : Bool) : Yaml → Page → Page
  | .tagged tag value, page => Page.value indent entry key value (page.tag tag)
  | .sequence [], page => (page.sign ['['] true true false).close [']']
  | .sequence (item :: items), page =>
    let inside := if 0 ≤ indent && entry && !page.fresh then indent else indentWithin indent
    Page.items inside (item :: items) page
  | .mapping [], page => (page.sign ['\x7b'] true true false).close ['\x7d']
  | .mapping (first :: entries), page => Page.entries (indentWithin indent) (first :: entries) page
  | .null, page => page.plain "null".toList
  | .bool value, page => page.plain (if value then "true" else "false").toList
  | .number value, page => page.plain value.render.toList
  | .string text, page => page.scalar indent (styleOf text key) text.toList

/-- The page with the items of a sequence, one to a line. -/
def Page.items (indent : Int) : List Yaml → Page → Page
  | [], page => page
  | item :: items, page =>
    let page := (page.indent indent).sign ['-'] true false true
    Page.items indent items (Page.value indent false false item page)

/-- The page with the entries of a mapping, one to a line. -/
def Page.entries (indent : Int) : List (Yaml × Yaml) → Page → Page
  | [], page => page
  | (key, value) :: entries, page =>
    let page := page.indent indent
    let page :=
      if isSimpleKey key then (Page.value indent true true key page).close [':']
      else
        let page := Page.value indent true false key (page.sign ['?'] true false true)
        (page.indent indent).sign [':'] true false true
    Page.entries indent entries (Page.value indent true false value page)

end

/-- A value as a document. -/
def render (value : Yaml) : String :=
  String.ofList (((Page.value (-1) false false value .empty).indent 0).text.reverse)

end SampleMethods.Yaml
