import SampleMethods.Yaml.Cursor
import SampleMethods.Yaml.Token

/-!
# Anchors, tags and directives of YAML documents

What may stand in front of a node, an anchor and a tag, and what may stand in
front of a document, its version and abbreviations for tags. In tags, octets may
be written by percent signs.
-/

set_option autoImplicit false

namespace SampleMethods.Yaml

/-! ## Anchors and aliases -/

/-- Whether a name may end in front of the text. -/
def endsName : List Char → Bool
  | [] => true
  | character :: rest =>
    isGap (character :: rest) || ['?', ':', ',', ']', '\x7d', '%', '@', '\x60'].contains character

/-- Reads an anchor or an alias behind its sign. -/
def reference (activity : Activity) (kind : String → Token.Kind) : Scan Token := do
  let start ← Scan.mark
  Scan.drop 1
  let name ← Scan.span isWord
  if name.isEmpty || !endsName (← Scan.rest) then
    Scan.fail activity start .badAnchor
  return ⟨kind (String.ofList name), start, ← Scan.mark⟩

/-- Reads an anchor. -/
def anchorToken : Scan Token :=
  reference .anchor .anchor

/-- Reads an alias. -/
def aliasToken : Scan Token :=
  reference .aliasOf .aliasOf

/-! ## Addresses of tags -/

/-- Whether an address may hold a character. `verbatim` says whether it is between angle
brackets or in a directive. -/
def isAddress (verbatim : Bool) (character : Char) : Bool :=
  isWord character || ";/?:@&=+$.%!~*'()".toList.contains character ||
    (verbatim && [',', '[', ']'].contains character)

/-- The number of octets of the character that an octet starts. -/
def octetCount? (octet : Nat) : Option Nat :=
  if octet < 0x80 then some 1
  else if octet / 0x20 = 6 then some 2
  else if octet / 0x10 = 14 then some 3
  else if octet / 8 = 30 then some 4
  else none

/-- Reads an octet that is written by a percent sign. -/
def octet (activity : Activity) (start : Mark) : Scan Nat := do
  match ← Scan.rest with
  | '%' :: first :: second :: _ =>
    if isHexDigit first && isHexDigit second then
      return hexNumber [first, second]
    else Scan.fail activity start .missingOctet
  | _ => Scan.fail activity start .missingOctet

/-- Reads the further octets of a character. -/
def furtherOctets (activity : Activity) (start : Mark) : Nat → Scan (List Nat)
  | 0 => return []
  | count + 1 => do
    let octet ← octet activity start
    if octet / 0x40 != 2 then
      Scan.fail activity start .badTrailingOctet
    Scan.drop 3
    return octet :: (← furtherOctets activity start count)

/-- The character that octets stand for. Octets that stand for none give the one for that. -/
def ofOctets (octets : List Nat) : Char :=
  let bytes := ByteArray.mk (octets.map Nat.toUInt8).toArray
  match (String.fromUTF8? bytes).map String.toList with
  | some [character] => character
  | _ => '\uFFFD'

/-- Reads a character that is written by its octets. -/
def octetCharacter (activity : Activity) (start : Mark) : Scan Char := do
  let first ← octet activity start
  match octetCount? first with
  | none => Scan.fail activity start .badLeadingOctet
  | some count =>
    Scan.drop 3
    let others ← furtherOctets activity start (count - 1)
    return ofOctets (first :: others)

/-- Reads on in an address. The text is reversed. -/
def readAddress (verbatim : Bool) (activity : Activity) (start : Mark) :
    Nat → List Char → Scan (List Char)
  | 0, text => return text
  | rounds + 1, text => do
    match ← Scan.rest with
    | [] => return text
    | character :: _ =>
      if character == '%' then
        let character ← octetCharacter activity start
        readAddress verbatim activity start rounds (character :: text)
      else if isAddress verbatim character then
        Scan.drop 1
        readAddress verbatim activity start rounds (character :: text)
      else return text

/-- Reads an address, the start of which has been read already. The start may stand for the
address only if it is more than an exclamation mark. -/
def address (verbatim : Bool) (activity : Activity) (head : List Char) (start : Mark) :
    Scan String := do
  let text ← readAddress verbatim activity start ((← Scan.rest).length + 1) []
  if head.isEmpty && text.isEmpty then
    Scan.fail activity start .missingTagAddress
  return String.ofList (head.drop 1 ++ text.reverse)

/-- Reads a handle of a tag. In a directive it has to end with an exclamation mark. -/
def handle (inDirective : Bool) (start : Mark) : Scan (List Char) := do
  unless ← Scan.sees '!' do
    Scan.fail (if inDirective then .tagDirectiveHandle else .tag) start .missingExclamation
  Scan.drop 1
  let name ← Scan.span isWord
  if ← Scan.sees '!' then
    Scan.drop 1
    return '!' :: name ++ ['!']
  if inDirective && !name.isEmpty then
    Scan.fail .tagDirectiveHandleEnd start .missingExclamation
  return '!' :: name

/-! ## Tags -/

/-- Reads the handle and the suffix of a tag. A tag in angle brackets has no handle, and
neither has the tag that is an exclamation mark. -/
def tagParts (start : Mark) : Scan (String × String) := do
  if (← Scan.rest).tail.head? == some '<' then
    Scan.drop 2
    let suffix ← address true .tagAddress [] start
    unless ← Scan.sees '>' do
      Scan.fail .tag start .missingTagEnd
    Scan.drop 1
    return ("", suffix)
  let handle ← handle false start
  if 1 < handle.length && handle.getLast? == some '!' then
    return (String.ofList handle, ← address false .tagAddress [] start)
  let suffix ← address false .tagAddress handle start
  return if suffix.isEmpty then ("", "!") else ("!", suffix)

/-- Reads a tag. `flow` says whether it is in a flow collection, where a comma may follow. -/
def tag (flow : Bool) : Scan Token := do
  let start ← Scan.mark
  let (handle, suffix) ← tagParts start
  let rest ← Scan.rest
  unless isGap rest || (flow && rest.head? == some ',') do
    Scan.fail .tag start .tagContinues
  return ⟨.tag handle suffix, start, ← Scan.mark⟩

/-! ## Directives -/

/-- Reads the name of a directive. -/
def directiveName (start : Mark) : Scan String := do
  let name ← Scan.span isWord
  if name.isEmpty then
    Scan.fail .directive start .missingDirectiveName
  unless isGap (← Scan.rest) do
    Scan.fail .directive start .badDirectiveName
  return String.ofList name

/-- The number of digits that a number of a version may have. -/
def versionLimit : Nat := 9

/-- Reads a number of a version. -/
def versionNumber (start : Mark) : Scan Nat := do
  let digits := (← Scan.rest).takeWhile Char.isDigit
  if versionLimit < digits.length then
    Scan.drop versionLimit
    Scan.fail .versionDirective start .longVersion
  if digits.isEmpty then
    Scan.fail .versionDirective start .missingVersion
  Scan.drop digits.length
  return digits.foldl (fun number digit => 10 * number + hexValue digit) 0

/-- Reads a version. -/
def version (start : Mark) : Scan Token.Kind := do
  Scan.skip isSpace
  let major ← versionNumber start
  unless ← Scan.sees '.' do
    Scan.fail .versionDirective start .missingVersionDot
  Scan.drop 1
  return .version major (← versionNumber start)

/-- Reads an abbreviation for tags. -/
def tagDirective (start : Mark) : Scan Token.Kind := do
  Scan.skip isSpace
  let handle ← handle true start
  unless (← Scan.rest).head?.any isSpace do
    Scan.fail .tagDirective start .directiveWithoutBlank
  Scan.skip isSpace
  let address ← address true .tagDirectiveAddress [] start
  unless isGap (← Scan.rest) do
    Scan.fail .tagDirective start .directiveWithoutEnd
  return .tagDirective (String.ofList handle) address

/-- Reads a directive and the rest of its line. -/
def directive : Scan Token := do
  let start ← Scan.mark
  Scan.drop 1
  let name ← directiveName start
  let kind ←
    if name == "YAML" then version start
    else if name == "TAG" then tagDirective start
    else Scan.fail .directive start .unknownDirective
  let stop ← Scan.mark
  Scan.skip isSpace
  Scan.comment
  unless (← get).atLineEnd do
    Scan.fail .directive start .directiveContinues
  discard Scan.lineBreak
  return ⟨kind, start, stop⟩

end SampleMethods.Yaml
