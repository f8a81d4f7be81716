/-!
# Searching in text

A text is cut at the first place where something stands that is looked for.
-/

set_option autoImplicit false

namespace SampleMethods.Text

/-- The text behind the first place where the pattern stands. -/
def behindFirst? (pattern : List Char) : List Char → Option (List Char)
  | [] => if pattern.isEmpty then some [] else none
  | character :: rest =>
    if pattern.isPrefixOf (character :: rest) then
      some ((character :: rest).drop pattern.length)
    else behindFirst? pattern rest

/-- The text in front of the first place where the character stands. -/
def beforeFirst? (mark : Char) (text : List Char) : Option (List Char) :=
  if text.contains mark then some (text.takeWhile (· != mark)) else none

end SampleMethods.Text
