import SampleMethods.Json.Basic
import SampleMethods.Text.Debug

/-!
# Errors in JSON documents

Why a document is refused, as text or as a value of the wanted form, and where.
A document that is refused by its form rather than by its text may have no
place to show.
-/

set_option autoImplicit false

namespace SampleMethods.Json

/-- What was found where something else was wanted. -/
inductive Found where
  | null
  | bool (value : Bool)
  | number (value : Number)
  | string (text : String)
  | sequence
  | map
deriving DecidableEq, Repr

namespace Found

/-- What a value is found to be. -/
def ofJson : Json → Found
  | .null => null
  | .bool value => bool value
  | .number value => number value
  | .string text => string text
  | .array _ => sequence
  | .object _ => map

/-- How messages name what was found. -/
def describe : Found → String
  | null => "null"
  | bool value => "boolean `" ++ (if value then "true" else "false") ++ "`"
  | number (.natural value) => "integer `" ++ toString value ++ "`"
  | number (.negative size) => "integer `-" ++ toString size ++ "`"
  | number (.fraction value) => "floating point `" ++ value.render "+" ++ "`"
  | string text => "string " ++ Text.quote text
  | sequence => "sequence"
  | map => "map"

end Found

/-- Why a document is refused. -/
inductive Cause where
  | endInList
  | endInObject
  | endInString
  | endInValue
  | missingColon
  | missingListComma
  | missingObjectComma
  | unknownWord
  | missingValue
  | badEscape
  | badNumber
  | numberOutOfRange
  | controlCharacter
  | keyNotString
  | loneSurrogate
  | trailingComma
  | trailingCharacters
  | unfinishedSurrogate
  | tooDeep
  | wrongType (found : Found) (wanted : String)
  | wrongValue (found : Found) (wanted : String)
  | wrongLength (length : Nat) (wanted : String)
  | unknownVariant (name wanted : String)
  | unknownField (name wanted : String)
  | missingField (name : String)
  | duplicateField (name : String)
deriving DecidableEq, Repr

/-- The sentence that states a cause. -/
def Cause.message : Cause → String
  | endInList => "EOF while parsing a list"
  | endInObject => "EOF while parsing an object"
  | endInString => "EOF while parsing a string"
  | endInValue => "EOF while parsing a value"
  | missingColon => "expected `:`"
  | missingListComma => "expected `,` or `]`"
  | missingObjectComma => "expected `,` or `\x7d`"
  | unknownWord => "expected ident"
  | missingValue => "expected value"
  | badEscape => "invalid escape"
  | badNumber => "invalid number"
  | numberOutOfRange => "number out of range"
  | controlCharacter => "control character (\\u0000-\\u001F) found while parsing a string"
  | keyNotString => "key must be a string"
  | loneSurrogate => "lone leading surrogate in hex escape"
  | trailingComma => "trailing comma"
  | trailingCharacters => "trailing characters"
  | unfinishedSurrogate => "unexpected end of hex escape"
  | tooDeep => "recursion limit exceeded"
  | wrongType found wanted => "invalid type: " ++ found.describe ++ ", expected " ++ wanted
  | wrongValue found wanted => "invalid value: " ++ found.describe ++ ", expected " ++ wanted
  | wrongLength length wanted => "invalid length " ++ toString length ++ ", expected " ++ wanted
  | unknownVariant name wanted => "unknown variant `" ++ name ++ "`, expected " ++ wanted
  | unknownField name wanted => "unknown field `" ++ name ++ "`, expected " ++ wanted
  | missingField name => "missing field `" ++ name ++ "`"
  | duplicateField name => "duplicate field `" ++ name ++ "`"

/-- A place in a document: a line, counted from one, and a number of bytes in it. -/
structure Place where
  line : Nat
  column : Nat
deriving DecidableEq, Repr

/-- An error in a document. -/
structure Error where
  cause : Cause
  place : Option Place
deriving DecidableEq, Repr

/-- The error as a line of text. -/
def Error.message (error : Error) : String :=
  error.cause.message ++
    match error.place with
    | some place => " at line " ++ toString place.line ++ " column " ++ toString place.column
    | none => ""

end SampleMethods.Json
