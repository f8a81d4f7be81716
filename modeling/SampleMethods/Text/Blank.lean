/-!
# White space

The characters with the property `White_Space`, and the removal of such
characters from the two ends of a text. Everything that the library calls
blank is decided by `isBlank`, so a no-break space and a line separator
count and a byte order mark does not.
-/

set_option autoImplicit false

namespace SampleMethods.Text

/-- A character is blank when it has the Unicode property `White_Space`. -/
def isBlank (character : Char) : Bool :=
  let code := character.toNat
  (9 ≤ code && code ≤ 13) || code == 0x20 || code == 0x85 || code == 0xA0 || code == 0x1680 ||
    (0x2000 ≤ code && code ≤ 0x200A) || code == 0x2028 || code == 0x2029 || code == 0x202F ||
    code == 0x205F || code == 0x3000

/-- The text without the blank characters it starts with. -/
def trimStart (text : List Char) : List Char :=
  text.dropWhile isBlank

/-- The text without the blank characters it ends with. A character stays when
it is not blank or when something that stays follows it. -/
def trimEnd : List Char → List Char
  | [] => []
  | character :: rest =>
    match trimEnd rest with
    | [] => if isBlank character then [] else [character]
    | kept => character :: kept

/-- The text without the blank characters at its two ends. -/
def trim (text : List Char) : List Char :=
  trimEnd (trimStart text)

/-- Whether every character of the text is blank. -/
def isAllBlank (text : List Char) : Bool :=
  text.all isBlank

end SampleMethods.Text
