import SampleMethods.Glob.Matching

/-!
# How deeply patterns are nested

Patterns that are not looked up by plain text are matched together, as regular
expressions. How deeply those may be nested has a limit, which the braces of a
pattern may go beyond.
-/

set_option autoImplicit false

namespace SampleMethods.Glob

open Text (bytesOf)

/-! ## Regular expressions -/

/-- How deeply regular expressions may be nested. -/
def nestingLimit : Nat := 250

mutual

/-- The number of parts that tokens give to a regular expression. -/
def partsIn : List Token → Nat
  | [] => 0
  | token :: tokens => partsOf token + partsIn tokens

/-- The number of parts that a token gives to a regular expression. -/
def partsOf : Token → Nat
  | .literal character => (bytesOf character).length
  | .trailingSteps => 2
  | .alternatives branches => if areVoid branches then 0 else 1
  | .any | .many | .leadingSteps | .innerSteps | .oneOf .. => 1

end

/-- How deeply a regular expression is nested whose parts follow one another. -/
def rowNesting (parts deepest : Nat) : Nat :=
  if parts < 2 then deepest else deepest + 1

mutual

/-- How deeply the deepest one of tokens is nested. -/
def deepestIn : List Token → Nat
  | [] => 0
  | token :: tokens => max (nestingOf token) (deepestIn tokens)

/-- How deeply the regular expression of a token is nested. -/
def nestingOf : Token → Nat
  | .literal _ | .any => 0
  | .many | .trailingSteps => 1
  | .leadingSteps | .innerSteps => 4
  | .oneOf _ ranges =>
    if (ranges.flatMap fun range => byteRanges range.1 range.2).length < 2 then 1 else 2
  | .alternatives branches =>
    if areVoid branches then 0
    else (if (branches.filter (!isVoid ·)).length < 2 then 1 else 2) + deepestBranch branches

/-- How deeply the deepest branch is nested. -/
def deepestBranch : List (List Token) → Nat
  | [] => 0
  | branch :: branches =>
    max (rowNesting (partsIn branch) (deepestIn branch)) (deepestBranch branches)

end

/-- How deeply the regular expression of tokens is nested. -/
def nestingIn (tokens : List Token) : Nat :=
  deepestIn tokens + 1

/-! ## Sets of patterns -/

/-- Whether tokens are plain text behind marks for any text, or without such marks. -/
def isTextBehindMarks (tokens : List Token) : Bool :=
  match tokens with
  | .leadingSteps :: .many :: text | .many :: text =>
    areLiteral text && !text.isEmpty && !(text.length == 1 && text.any (isLiteral '/'))
  | .leadingSteps :: text | text => areLiteral text && !text.isEmpty

/-- Whether tokens are plain text before a mark for any text. -/
def isTextBeforeMark (tokens : List Token) : Bool :=
  match tokens.getLast? with
  | some .many => areLiteral tokens.dropLast && !tokens.dropLast.isEmpty
  | some .trailingSteps => areLiteral tokens.dropLast
  | _ => false

/-- Whether a pattern is matched by a regular expression. Plain text is looked up, also with marks
for any text at one of its ends. -/
def isExpression (tokens : List Token) : Bool :=
  !isTextBehindMarks tokens && !isTextBeforeMark tokens

/-- Whether tokens end in plain text from a point on, without a slash. The last token comes
first. -/
def hasExtension : List Token → Bool
  | .literal character :: tokens =>
    character == '.' || character != '/' && hasExtension tokens
  | _ => false

/-- Whether the regular expression of a pattern is nested too deeply. -/
def isTooDeep (glob : Glob) : Bool :=
  nestingLimit < nestingIn glob.tokens

/-- The place of the first pattern that is nested too deeply, among those that are put together.
A pattern that ends in an extension is looked up by that first, and so stands alone. -/
def tooDeep? (globs : List Glob) : Option Nat :=
  let (alone, together) := (globs.filter (isExpression ·.tokens)).partition fun glob =>
    hasExtension glob.tokens.reverse
  if alone.any isTooDeep then some 0 else together.findIdx? isTooDeep

end SampleMethods.Glob
