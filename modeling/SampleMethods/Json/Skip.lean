import SampleMethods.Json.Reader

/-!
# Going over JSON values

A value that nobody wants is gone over without being kept. That is laxer than
reading it: brackets may be nested to any depth, numbers may be out of range,
and an escape may name half of a surrogate pair. The end of a list or an object
is reported by what stands there, so `[1,]` lacks a value and `{"a":1,}` a name.
-/

set_option autoImplicit false

namespace SampleMethods.Json.Reader

/-- Goes over an escape behind its backslash. -/
def skipEscape : Reader Unit := do
  match ← next with
  | none => fail .endInString
  | some 'u' => discard hexFour
  | some character =>
    unless ['"', '\\', '/', 'b', 'f', 'n', 'r', 't'].contains character do
      fail .badEscape

/-- Goes over the characters of a string and its closing quote. `rounds` bounds their
number. -/
def skipStringTail : Nat → Reader Unit
  | 0 => fail .endInString
  | rounds + 1 => do
    match ← next with
    | none => fail .endInString
    | some '"' => return
    | some '\\' =>
      skipEscape
      skipStringTail rounds
    | some character =>
      if character.toNat < 0x20 then
        fail .controlCharacter
      skipStringTail rounds

/-- Goes over a string, whose opening quote is the next character. -/
def skipString : Reader Unit := do
  skip
  skipStringTail ((← get).rest.length + 1)

/-- Goes over an exponent, whose mark is the next character. -/
def skipExponent : Reader Unit := do
  skip
  match ← peek with
  | some '+' | some '-' => skip
  | _ => pure ()
  match ← next with
  | some first =>
    unless isDigit first do
      fail .badNumber
    discard digits
  | none => fail .badNumber

/-- Goes over a number without its sign. -/
def skipUnsigned : Reader Unit := do
  match ← next with
  | none => fail .badNumber
  | some first =>
    unless isDigit first do
      fail .badNumber
    if first == '0' then
      if ← isAtDigit then
        failAtNext .badNumber
    else
      discard digits
    match ← peek with
    | some '.' =>
      skip
      if (← digits).isEmpty then
        failAtNext .badNumber
      match ← peek with
      | some 'e' | some 'E' => skipExponent
      | _ => return
    | some 'e' | some 'E' => skipExponent
    | _ => return

/-- What is open around the present place: a list or an object. -/
inductive Bracket where
  | list
  | object
deriving DecidableEq, Repr

/-- The error of a text that ends inside the bracket. -/
def Bracket.endCause : Bracket → Cause
  | list => .endInList
  | object => .endInObject

/-- The error of a missing comma inside the bracket. -/
def Bracket.commaCause : Bracket → Cause
  | list => .missingListComma
  | object => .missingObjectComma

/-- The character that closes the bracket. -/
def Bracket.closing : Bracket → Char
  | list => ']'
  | object => '\x7d'

/-- Goes over the name of a member and its colon. -/
def skipName : Reader Unit := do
  match ← nextVisible with
  | some '"' => skipString
  | some _ => failAtNext .keyNotString
  | none => failAtNext .endInObject
  colon

/-- Goes over closing brackets, and over the comma or the name in front of the next value.
Gives the brackets that are still open, the innermost one first; none are open when the value
is over. `complete` says that a value has just ended. -/
def skipToValue : Bool → List Bracket → Reader (List Bracket)
  | _, [] => return []
  | complete, bracket :: outer => do
    match ← nextVisible with
    | none => failAtNext bracket.endCause
    | some character =>
      if character == bracket.closing then
        skip
        skipToValue true outer
      else if complete && character != ',' then
        failAtNext bracket.commaCause
      else
        if complete then
          skip
        if bracket == .object then
          skipName
        return bracket :: outer

/-- Goes over a value inside brackets, until all of them are closed. `rounds` bounds the number
of values. -/
def skipValueIn : Nat → List Bracket → Reader Unit
  | 0, _ => fail .endInValue
  | rounds + 1, outer => do
    let (complete, brackets) ←
      match ← nextVisible with
      | none => failAtNext .endInValue
      | some 'n' =>
        skip
        word "ull".toList
        pure (true, outer)
      | some 't' =>
        skip
        word "rue".toList
        pure (true, outer)
      | some 'f' =>
        skip
        word "alse".toList
        pure (true, outer)
      | some '"' =>
        skipString
        pure (true, outer)
      | some '-' =>
        skip
        skipUnsigned
        pure (true, outer)
      | some '[' =>
        skip
        pure (false, Bracket.list :: outer)
      | some '\x7b' =>
        skip
        pure (false, Bracket.object :: outer)
      | some character =>
        if isDigit character then
          skipUnsigned
          pure (true, outer)
        else
          failAtNext .missingValue
    match ← skipToValue complete brackets with
    | [] => return
    | brackets => skipValueIn rounds brackets

/-- Goes over any value. -/
def skipValue : Reader Unit := do
  skipValueIn ((← get).rest.length + 1) []

end SampleMethods.Json.Reader
