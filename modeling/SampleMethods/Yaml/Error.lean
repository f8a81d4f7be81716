import SampleMethods.Text.Debug

/-!
# Errors in YAML documents

Why a document is refused and where. An error of the written form has a problem
with a place, and often what was being read and where that starts. An error of
the value that is written has a place and the path that leads to it in the
value.

A place at the very start of a document is not shown.
-/

set_option autoImplicit false

namespace SampleMethods.Yaml

/-- A place in a document: the characters and the line breaks in front of it, and the
characters in front of it in its line. -/
structure Mark where
  index : Nat
  line : Nat
  column : Nat
deriving DecidableEq, Repr, Inhabited

namespace Mark

/-- The start of a document. -/
def start : Mark :=
  ⟨0, 0, 0⟩

/-- The place behind so many characters of a line. -/
def advance (mark : Mark) (count : Nat) : Mark :=
  ⟨mark.index + count, mark.line, mark.column + count⟩

/-- Whether two places are in one line and in one column of it. -/
def isLevelWith (first second : Mark) : Bool :=
  first.line == second.line && first.column == second.column

/-- How messages show a place. -/
def suffix (mark : Mark) : String :=
  if mark.isLevelWith start then ""
  else " at line " ++ toString (mark.line + 1) ++ " column " ++ toString (mark.column + 1)

end Mark

/-! ## The written form -/

/-- What is being read when an error comes up. -/
inductive Activity where
  | directive
  | versionDirective
  | tagDirective
  | tagDirectiveHandle
  | tagDirectiveHandleEnd
  | tagDirectiveAddress
  | anchor
  | aliasOf
  | tag
  | tagAddress
  | blockScalar
  | quotedScalar
  | quotedCharacter
  | plainScalar
  | simpleKey
  | nextToken
  | node
  | blockNode
  | flowNode
  | blockSequence
  | blockMapping
  | flowSequence
  | flowMapping
deriving DecidableEq, Repr

/-- How messages name what is being read. -/
def Activity.describe : Activity → String
  | directive => "while scanning a directive"
  | versionDirective => "while scanning a %YAML directive"
  | tagDirective => "while scanning a %TAG directive"
  | tagDirectiveHandle => "while scanning a tag directive"
  | tagDirectiveHandleEnd => "while parsing a tag directive"
  | tagDirectiveAddress => "while parsing a %TAG directive"
  | anchor => "while scanning an anchor"
  | aliasOf => "while scanning an alias"
  | tag => "while scanning a tag"
  | tagAddress => "while parsing a tag"
  | blockScalar => "while scanning a block scalar"
  | quotedScalar => "while scanning a quoted scalar"
  | quotedCharacter => "while parsing a quoted scalar"
  | plainScalar => "while scanning a plain scalar"
  | simpleKey => "while scanning a simple key"
  | nextToken => "while scanning for the next token"
  | node => "while parsing a node"
  | blockNode => "while parsing a block node"
  | flowNode => "while parsing a flow node"
  | blockSequence => "while parsing a block collection"
  | blockMapping => "while parsing a block mapping"
  | flowSequence => "while parsing a flow sequence"
  | flowMapping => "while parsing a flow mapping"

/-- What is wrong with the written form. -/
inductive Problem where
  | blockEntryOutOfPlace
  | keyOutOfPlace
  | valueOutOfPlace
  | missingColon
  | noTokenStarts
  | unknownDirective
  | missingDirectiveName
  | badDirectiveName
  | directiveContinues
  | missingVersionDot
  | missingVersion
  | longVersion
  | directiveWithoutBlank
  | directiveWithoutEnd
  | badAnchor
  | missingExclamation
  | missingTagEnd
  | tagContinues
  | missingTagAddress
  | missingOctet
  | badLeadingOctet
  | badTrailingOctet
  | zeroIndentation
  | headerContinues
  | tabInBlockScalar
  | documentIndicator
  | endOfText
  | unknownEscape
  | missingHexadecimal
  | badCodePoint
  | unexpectedColon
  | tabInPlainScalar
  | missingDocumentStart
  | duplicateVersion
  | incompatibleVersion
  | duplicateTagDirective
  | undefinedHandle
  | missingNode
  | missingDash
  | missingKey
  | missingSequenceComma
  | missingMappingComma
deriving DecidableEq, Repr

/-- The sentence that states a problem. -/
def Problem.message : Problem → String
  | blockEntryOutOfPlace => "block sequence entries are not allowed in this context"
  | keyOutOfPlace => "mapping keys are not allowed in this context"
  | valueOutOfPlace => "mapping values are not allowed in this context"
  | missingColon => "could not find expected ':'"
  | noTokenStarts => "found character that cannot start any token"
  | unknownDirective => "found unknown directive name"
  | missingDirectiveName => "could not find expected directive name"
  | badDirectiveName => "found unexpected non-alphabetical character"
  | directiveContinues => "did not find expected comment or line break"
  | missingVersionDot => "did not find expected digit or '.' character"
  | missingVersion => "did not find expected version number"
  | longVersion => "found extremely long version number"
  | directiveWithoutBlank => "did not find expected whitespace"
  | directiveWithoutEnd => "did not find expected whitespace or line break"
  | badAnchor => "did not find expected alphabetic or numeric character"
  | missingExclamation => "did not find expected '!'"
  | missingTagEnd => "did not find the expected '>'"
  | tagContinues => "did not find expected whitespace or line break"
  | missingTagAddress => "did not find expected tag URI"
  | missingOctet => "did not find URI escaped octet"
  | badLeadingOctet => "found an incorrect leading UTF-8 octet"
  | badTrailingOctet => "found an incorrect trailing UTF-8 octet"
  | zeroIndentation => "found an indentation indicator equal to 0"
  | headerContinues => "did not find expected comment or line break"
  | tabInBlockScalar => "found a tab character where an indentation space is expected"
  | documentIndicator => "found unexpected document indicator"
  | endOfText => "found unexpected end of stream"
  | unknownEscape => "found unknown escape character"
  | missingHexadecimal => "did not find expected hexdecimal number"
  | badCodePoint => "found invalid Unicode character escape code"
  | unexpectedColon => "found unexpected ':'"
  | tabInPlainScalar => "found a tab character that violates indentation"
  | missingDocumentStart => "did not find expected <document start>"
  | duplicateVersion => "found duplicate %YAML directive"
  | incompatibleVersion => "found incompatible YAML document"
  | duplicateTagDirective => "found duplicate %TAG directive"
  | undefinedHandle => "found undefined tag handle"
  | missingNode => "did not find expected node content"
  | missingDash => "did not find expected '-' indicator"
  | missingKey => "did not find expected key"
  | missingSequenceComma => "did not find expected ',' or ']'"
  | missingMappingComma => "did not find expected ',' or '\x7d'"

/-- What was being read, and where it starts. -/
structure Context where
  activity : Activity
  start : Mark
deriving DecidableEq, Repr

/-- An error of the written form. -/
structure FormError where
  problem : Problem
  place : Mark
  context : Option Context
deriving DecidableEq, Repr

/-- The error as a line of text. -/
def FormError.message (error : FormError) : String :=
  error.problem.message ++ error.place.suffix ++
    match error.context with
    | none => ""
    | some context =>
      ", " ++ context.activity.describe ++
        if context.start.isLevelWith error.place then "" else context.start.suffix

/-! ## The value -/

/-- How messages name a key that a mapping has twice. -/
inductive RepeatedKey where
  | null
  | bool (value : Bool)
  | number (text : String)
  | string (text : String)
  | other
deriving DecidableEq, Repr

/-- What is wrong with the value that a document writes. -/
inductive ValueProblem where
  | repeatedKey (key : RepeatedKey)
  /-- A whole number of more than 64 bits. -/
  | wideInteger (negative : Bool) (size : Nat)
  /-- A text that is not what its tag promises. -/
  | notOfTag (text wanted : String)
deriving DecidableEq, Repr

/-- The sentence that states a problem of a value. -/
def ValueProblem.message : ValueProblem → String
  | repeatedKey .null => "duplicate entry with null key"
  | repeatedKey (.bool value) =>
    "duplicate entry with key \x60" ++ (if value then "true" else "false") ++ "\x60"
  | repeatedKey (.number text) => "duplicate entry with key " ++ text
  | repeatedKey (.string text) => "duplicate entry with key " ++ Text.quote text
  | repeatedKey .other => "duplicate entry in YAML map"
  | wideInteger negative size =>
    "invalid type: integer \x60" ++ (if negative then "-" else "") ++ toString size ++ "\x60 as " ++
      (if negative then "i128" else "u128") ++ ", expected any YAML value"
  | notOfTag text wanted =>
    "invalid value: string " ++ Text.quote text ++ ", expected " ++ wanted

/-- A step into a value. -/
inductive Step where
  | item (index : Nat)
  | key (text : String)
  /-- The value of a key that is no scalar. -/
  | unknownKey
deriving DecidableEq, Repr

/-- The path that some steps are, the innermost one first. -/
def Step.path : List Step → String
  | [] => "."
  | [.item index] => ".[" ++ toString index ++ "]"
  | .item index :: steps => path steps ++ "[" ++ toString index ++ "]"
  | [.key text] => text
  | .key text :: steps => path steps ++ "." ++ text
  | [.unknownKey] => "?"
  | .unknownKey :: steps => path steps ++ ".?"

/-! ## Errors -/

/-- Why a document is refused. -/
inductive Error where
  | form (error : FormError)
  /-- A character that documents may not hold, behind so many bytes. -/
  | controlCharacter (offset : Nat)
  | value (problem : ValueProblem) (place : Mark) (path : List Step)
  | tooDeep (place : Mark)
  | tooManyAliases
  | unknownAnchor (place : Mark)
  | endOfDocument
  | severalDocuments
deriving DecidableEq, Repr

/-- The error as a line of text. -/
def Error.message : Error → String
  | form error => error.message
  | controlCharacter offset =>
    "control characters are not allowed" ++
      if offset = 0 then "" else " at position " ++ toString offset
  | value problem place path =>
    (if path.isEmpty then "" else Step.path path ++ ": ") ++ problem.message ++ place.suffix
  | tooDeep place => "recursion limit exceeded" ++ place.suffix
  | tooManyAliases => "repetition limit exceeded"
  | unknownAnchor place => "unknown anchor" ++ place.suffix
  | endOfDocument => "EOF while parsing a value"
  | severalDocuments =>
    "deserializing from YAML containing more than one document is not supported"

end SampleMethods.Yaml
