import SampleMethods.Script.SyntaxError

/-!
# Tokens

The lexical units of a script. Words are kept as they read after their escapes
are resolved; whether a word is a keyword is a question to the word and not to
the token. Signs are the operators and punctuators, each with one spelling.
-/

set_option autoImplicit false

namespace SampleMethods.Script

/-! ## Signs -/

/-- An operator or punctuator. -/
inductive Sign where
  | leftBrace | rightBrace | leftParen | rightParen | leftBracket | rightBracket
  | semicolon | comma | colon | dot | ellipsis | question | optionalDot | arrow
  | backquote | hash | atSign
  | not | tilde | increment | decrement
  | plus | minus | times | divide | remainder | power
  | shiftLeft | shiftRight | shiftRightZero
  | less | greater | lessEqual | greaterEqual
  | equal | notEqual | strictEqual | strictNotEqual
  | bitAnd | bitOr | bitXor | logicalAnd | logicalOr | nullish
  | assign | plusAssign | minusAssign | timesAssign | divideAssign | remainderAssign | powerAssign
  | shiftLeftAssign | shiftRightAssign | shiftRightZeroAssign
  | bitAndAssign | bitOrAssign | bitXorAssign
  | logicalAndAssign | logicalOrAssign | nullishAssign
deriving DecidableEq, Repr

namespace Sign

/-- How a sign is written. -/
def spelling : Sign → String
  | leftBrace => "\x7b" | rightBrace => "\x7d" | leftParen => "(" | rightParen => ")"
  | leftBracket => "[" | rightBracket => "]" | semicolon => ";" | comma => "," | colon => ":"
  | dot => "." | ellipsis => "..." | question => "?" | optionalDot => "?." | arrow => "=>"
  | backquote => "`" | hash => "#" | atSign => "@"
  | not => "!" | tilde => "~" | increment => "++" | decrement => "--"
  | plus => "+" | minus => "-" | times => "*" | divide => "/" | remainder => "%" | power => "**"
  | shiftLeft => "<<" | shiftRight => ">>" | shiftRightZero => ">>>"
  | less => "<" | greater => ">" | lessEqual => "<=" | greaterEqual => ">="
  | equal => "==" | notEqual => "!=" | strictEqual => "===" | strictNotEqual => "!=="
  | bitAnd => "&" | bitOr => "|" | bitXor => "^" | logicalAnd => "&&" | logicalOr => "||"
  | nullish => "??"
  | assign => "=" | plusAssign => "+=" | minusAssign => "-=" | timesAssign => "*="
  | divideAssign => "/=" | remainderAssign => "%=" | powerAssign => "**="
  | shiftLeftAssign => "<<=" | shiftRightAssign => ">>=" | shiftRightZeroAssign => ">>>="
  | bitAndAssign => "&=" | bitOrAssign => "|=" | bitXorAssign => "^="
  | logicalAndAssign => "&&=" | logicalOrAssign => "||=" | nullishAssign => "??="

/-- Every sign, those with longer spellings first. -/
def all : List Sign :=
  [shiftRightZeroAssign,
   ellipsis, shiftRightZero, strictEqual, strictNotEqual, powerAssign, shiftLeftAssign,
   shiftRightAssign, logicalAndAssign, logicalOrAssign, nullishAssign,
   optionalDot, arrow, increment, decrement, power, shiftLeft, shiftRight, lessEqual,
   greaterEqual, equal, notEqual, logicalAnd, logicalOr, nullish, plusAssign, minusAssign,
   timesAssign, divideAssign, remainderAssign, bitAndAssign, bitOrAssign, bitXorAssign,
   leftBrace, rightBrace, leftParen, rightParen, leftBracket, rightBracket, semicolon, comma,
   colon, dot, question, backquote, hash, atSign, not, tilde, plus, minus, times, divide,
   remainder, less, greater, bitAnd, bitOr, bitXor, assign]

/-- Whether the sign is an assignment operator. -/
def isAssignment : Sign → Bool
  | assign | plusAssign | minusAssign | timesAssign | divideAssign | remainderAssign
  | powerAssign | shiftLeftAssign | shiftRightAssign | shiftRightZeroAssign | bitAndAssign
  | bitOrAssign | bitXorAssign | logicalAndAssign | logicalOrAssign | nullishAssign => true
  | _ => false

/-- How tightly a binary operator binds, or nothing for a sign that is none. -/
def precedence : Sign → Option Nat
  | nullish | logicalOr => some 1
  | logicalAnd => some 2
  | bitOr => some 3
  | bitXor => some 4
  | bitAnd => some 5
  | equal | notEqual | strictEqual | strictNotEqual => some 6
  | less | lessEqual | greater | greaterEqual => some 7
  | shiftLeft | shiftRight | shiftRightZero => some 8
  | plus | minus => some 9
  | times | divide | remainder => some 10
  | power => some 11
  | _ => none

/-- Whether the sign is a binary operator. -/
def isBinary (sign : Sign) : Bool :=
  sign.precedence.isSome

/-- What is left of a sign that starts with `>` after that character is taken away. -/
def afterGreater : Sign → Option (Option Sign)
  | greater => some none
  | greaterEqual => some (some assign)
  | shiftRight => some (some greater)
  | shiftRightZero => some (some shiftRight)
  | shiftRightAssign => some (some greaterEqual)
  | shiftRightZeroAssign => some (some shiftRightAssign)
  | _ => none

end Sign

/-! ## Tokens -/

/-- A lexical unit of a script. -/
inductive Token where
  /-- An identifier or keyword. `plain` says that it was written without escapes;
  only such a word can stand for a keyword. -/
  | word (text : String) (plain : Bool)
  | number (raw : String)
  | bigInt (raw : String)
  | string (value : String)
  | regExp (raw : String)
  | sign (sign : Sign)
  /-- Text between markup tags. -/
  | markupText (raw : String)
  /-- Text that starts no token. -/
  | bad (error : SyntaxError)
  | eof
deriving DecidableEq, Repr

namespace Token

/-- How a token is named in messages. -/
def describe : Token → String
  | word text _ => text
  | number raw => "numeric literal (" ++ raw ++ ", " ++ raw ++ ")"
  | bigInt raw => "bigint literal (" ++ raw ++ ")"
  | string value => "string literal (" ++ value ++ ", '" ++ value ++ "')"
  | regExp raw => "regexp literal (" ++ raw ++ ")"
  | .sign given => given.spelling
  | markupText raw => "jsx text (" ++ raw ++ ")"
  | bad _ => "<lexing error>"
  | eof => "<eof>"

/-- Whether the token is this sign. -/
def isSign (wanted : Sign) : Token → Bool
  | .sign given => given == wanted
  | _ => false

/-- Whether the token is this word, written without escapes. -/
def isWord (wanted : String) : Token → Bool
  | word text plain => plain && text == wanted
  | _ => false

/-- Whether the token is an identifier or keyword. -/
def isAnyWord : Token → Bool
  | word _ _ => true
  | _ => false

end Token

end SampleMethods.Script
