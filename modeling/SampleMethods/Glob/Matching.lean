import SampleMethods.Glob.Basic
import SampleMethods.Text.Bytes

/-!
# Matching paths against patterns

A pattern is matched against the bytes of a path, so the mark `?` and a class
stand for one byte each, and a character of several bytes in a class stands for
each of its bytes. What a token may stand for at the start of a text is given by
the texts that may be left behind it.
-/

set_option autoImplicit false

namespace SampleMethods.Glob

open Text (Bytes bytesOf encode slash)

/-! ## Classes -/

/-- The ranges of bytes that a range of characters stands for. A character of several bytes
gives all of them, and the range runs from the last byte of the first character to the first
byte of the last one. -/
def byteRanges (first last : Char) : List (UInt8 × UInt8) :=
  let single (bytes : Bytes) := bytes.map fun byte => (byte, byte)
  if first == last then single (bytesOf first)
  else
    match (bytesOf first).reverse, bytesOf last with
    | low :: front, high :: back => single front ++ [(low, high)] ++ single back
    | _, _ => []

/-- Whether a byte belongs to a class. -/
def isInClass (negated : Bool) (ranges : List (Char × Char)) (byte : UInt8) : Bool :=
  let within := ranges.any fun range =>
    (byteRanges range.1 range.2).any fun (low, high) => low ≤ byte && byte ≤ high
  within != negated

/-! ## Ends of texts -/

/-- The ends of a text, from the whole of it to nothing. -/
def endsOf : Bytes → List Bytes
  | [] => [[]]
  | byte :: rest => (byte :: rest) :: endsOf rest

/-- The ends of a text that stand behind a slash. -/
def endsBehindSlash : Bytes → List Bytes
  | [] => []
  | byte :: rest => if byte == slash then rest :: endsBehindSlash rest else endsBehindSlash rest

/-- The rest of a text that begins with the bytes. -/
def behind? : Bytes → Bytes → Option Bytes
  | [], text => some text
  | _ :: _, [] => none
  | wanted :: others, byte :: rest => if wanted == byte then behind? others rest else none

/-- The ends of one text, each of them once. They are told apart by their length. -/
def distinct (ends : List Bytes) : List Bytes :=
  ends.foldr
    (fun text others => if others.any (·.length == text.length) then others else text :: others)
    []

/-! ## Tokens -/

mutual

/-- Whether tokens stand for nothing at all, because they hold no more than empty
alternatives. -/
def isVoid : List Token → Bool
  | [] => true
  | token :: tokens => isVoidToken token && isVoid tokens

/-- Whether a token stands for nothing at all. -/
def isVoidToken : Token → Bool
  | .alternatives branches => areVoid branches
  | _ => false

/-- Whether every branch stands for nothing at all. -/
def areVoid : List (List Token) → Bool
  | [] => true
  | branch :: branches => isVoid branch && areVoid branches

end

mutual

/-- What may be left of a text behind a token. -/
def restsOfToken : Token → Bytes → List Bytes
  | .literal character, text => (behind? (bytesOf character) text).toList
  | .any, text => text.tail?.toList
  | .many, text => endsOf text
  | .leadingSteps, text => text :: endsBehindSlash text
  | .trailingSteps, text =>
    match text with
    | [] => []
    | byte :: rest => if byte == slash then endsOf rest else []
  | .innerSteps, text =>
    match text with
    | [] => []
    | byte :: rest => if byte == slash then rest :: endsBehindSlash rest else []
  | .oneOf negated ranges, text =>
    match text with
    | [] => []
    | byte :: rest => if isInClass negated ranges byte then [rest] else []
  | .alternatives branches, text =>
    if areVoid branches then [text] else restsOfBranches branches text

/-- What may be left of a text behind tokens. -/
def restsOf : List Token → List Bytes → List Bytes
  | [], texts => texts
  | token :: tokens, texts => restsOf tokens (distinct (texts.flatMap (restsOfToken token)))

/-- What may be left of a text behind one of the branches that stand for something. -/
def restsOfBranches : List (List Token) → Bytes → List Bytes
  | [], _ => []
  | branch :: branches, text =>
    (if isVoid branch then [] else restsOf branch [text]) ++ restsOfBranches branches text

end

/-! ## Patterns -/

/-- Whether the tokens are characters. -/
def areLiteral (tokens : List Token) : Bool :=
  tokens.all fun
    | .literal _ => true
    | _ => false

/-- Whether the token is the character. -/
def isLiteral (character : Char) : Token → Bool
  | .literal given => given == character
  | _ => false

/-- Whether a pattern is looked up by the end of a path as a whole: it is plain text, or plain
text behind a star or behind steps. -/
def isPlainEnd (tokens : List Token) : Bool :=
  match tokens with
  | .leadingSteps :: .many :: tokens | .many :: tokens => areLiteral tokens && tokens.length != 1
  | .leadingSteps :: tokens => areLiteral tokens && tokens.any (isLiteral '/')
  | tokens => areLiteral tokens

/-- Whether a pattern is looked up by the last name of a path, and that name ends in a point.
A path that ends in a point has no last name, so nothing matches such a pattern. -/
def wantsFinalPoint (tokens : List Token) : Bool :=
  (tokens.getLast?.map (isLiteral '.')).getD false && !isPlainEnd tokens

/-- Whether a path matches a pattern. The pattern `**` is matched by every path. -/
def isMatch (glob : Glob) (path : String) : Bool :=
  match glob.tokens with
  | [.leadingSteps] => true
  | tokens =>
    !wantsFinalPoint tokens && (restsOf tokens [encode path.toList]).any (·.isEmpty)

end SampleMethods.Glob
