/-!
# File patterns

A pattern is a row of tokens. Most of them stand for one character or for any
text; a double star that stands alone between slashes stands for whole steps of
a path, and braces hold alternatives, which are patterns again.
-/

set_option autoImplicit false

namespace SampleMethods

/-- A part of a pattern. -/
inductive Glob.Token where
  | literal (character : Char)
  /-- The mark `?`. -/
  | any
  /-- The mark `*`. -/
  | many
  /-- The mark `**` at the start of a pattern, together with the slash behind it. -/
  | leadingSteps
  /-- The mark `**` at the end of a pattern, together with the slash before it. -/
  | trailingSteps
  /-- The mark `**` between two slashes, together with them. -/
  | innerSteps
  /-- A class in brackets: its ranges, and whether it stands for the other characters. -/
  | oneOf (negated : Bool) (ranges : List (Char × Char))
  | alternatives (branches : List (List Glob.Token))
deriving Repr, Inhabited

/-- A pattern: its text and its tokens. -/
structure Glob where
  text : String
  tokens : List Glob.Token
deriving Repr, Inhabited

namespace Glob

/-- Why a text is no pattern. -/
inductive Cause where
  | unclosedClass
  | emptyRange (first last : Char)
  | unopenedAlternatives
  | unclosedAlternatives
  | danglingEscape
deriving DecidableEq, Repr

/-- The sentence that states a cause. -/
def Cause.message : Cause → String
  | unclosedClass => "unclosed character class; missing ']'"
  | emptyRange first last =>
    "invalid range; '" ++ first.toString ++ "' > '" ++ last.toString ++ "'"
  | unopenedAlternatives =>
    "unopened alternate group; missing '\x7b' (maybe escape '\x7d' with '[\x7d]'?)"
  | unclosedAlternatives =>
    "unclosed alternate group; missing '\x7d' (maybe escape '\x7b' with '[\x7b]'?)"
  | danglingEscape => "dangling '\\'"

/-- An error in a pattern. -/
structure Error where
  text : String
  cause : Cause
deriving DecidableEq, Repr

/-- The error as a sentence. -/
def Error.message (error : Error) : String :=
  "error parsing glob '" ++ error.text ++ "': " ++ error.cause.message

end Glob

end SampleMethods
