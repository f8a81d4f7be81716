import SampleMethods.Script.Identifier.Ranges

/-!
# Identifiers

Which characters may start and continue an identifier, and which words the
grammar keeps for itself. A script is read as a module, so the words that only
strict code reserves are reserved throughout.
-/

set_option autoImplicit false

namespace SampleMethods.Script.Identifier

/-- Whether a code point lies in one of the ranges. -/
def inRanges (ranges : List (Nat × Nat)) (code : Nat) : Bool :=
  ranges.any fun range => range.1 ≤ code && code ≤ range.2

/-- Whether an identifier may start with the character. -/
def isStart (character : Char) : Bool :=
  let code := character.toNat
  if code < 0x80 then character.isAlpha || character == '$' || character == '_'
  else inRanges startRanges code

/-- Whether an identifier may continue with the character. The zero-width joiner and
non-joiner may stand inside an identifier. -/
def isContinue (character : Char) : Bool :=
  let code := character.toNat
  if code < 0x80 then character.isAlphanum || character == '$' || character == '_'
  else code == 0x200C || code == 0x200D || inRanges startRanges code || inRanges continueRanges code

/-! ## Reserved words -/

/-- The words that are keywords in every position. -/
def keywords : List String :=
  ["break", "case", "catch", "class", "const", "continue", "debugger", "default", "delete", "do",
   "else", "export", "extends", "false", "finally", "for", "function", "if", "import", "in",
   "instanceof", "new", "null", "return", "super", "switch", "this", "throw", "true", "try",
   "typeof", "var", "void", "while", "with"]

/-- The words that strict code reserves besides the keywords. -/
def strictWords : List String :=
  ["await", "enum", "implements", "interface", "let", "package", "private", "protected", "public",
   "static", "yield"]

/-- The words that the lexical grammar knows as keywords and not as identifiers. -/
def keywordTokens : List String :=
  keywords ++ ["await", "let", "yield"]

/-- Whether the word may not name a variable that an expression refers to. -/
def isReserved (word : String) : Bool :=
  keywords.contains word || strictWords.contains word

/-- Whether the word is lexically an identifier, reserved or not. -/
def isIdentifierToken (word : String) : Bool :=
  !keywordTokens.contains word

end SampleMethods.Script.Identifier
