/-!
# Lines of a text

Two ways of cutting a text into lines live side by side, and this module holds
both.

* `splitLines` is the cut that readers of a text file make: a line feed ends a
  line, and one carriage return before it belongs to the ending.
* `lineAt` is the count that positions in a program use: a line feed, a
  carriage return with the line feed after it, and a lone carriage return each
  end a line.

A position is a number of characters from the start of the text.
-/

set_option autoImplicit false

namespace SampleMethods.Text

/-! ## Cutting into lines -/

/-- The lines of the text, in order and without their endings. A piece that ends
with a line feed loses one carriage return before it; a piece that the end of
the text ends keeps what it has. -/
def splitLines : List Char → List (List Char)
  | [] => []
  | '\n' :: rest => [] :: splitLines rest
  | '\r' :: '\n' :: rest => [] :: splitLines rest
  | [character] => [[character]]
  | character :: rest =>
    match splitLines rest with
    | [] => [[character]]
    | line :: lines => (character :: line) :: lines

/-! ## Counting lines -/

/-- Whether a line ends with the first of two neighbouring characters. A carriage
return before a line feed ends nothing, because the line feed does. -/
def endsLine (character : Char) (next : Option Char) : Bool :=
  character == '\n' || (character == '\r' && next != some '\n')

/-- The number of line ends among the first `position` characters of the text. -/
def lineEndsBefore : List Char → Nat → Nat
  | [], _ => 0
  | _, 0 => 0
  | character :: rest, position + 1 =>
    (if endsLine character rest.head? then 1 else 0) + lineEndsBefore rest position

/-- The line of a position, counted from one. -/
def lineAt (text : List Char) (position : Nat) : Nat :=
  lineEndsBefore text position + 1

/-- The number of line ends in the whole text. -/
def lineEnds (text : List Char) : Nat :=
  lineEndsBefore text text.length

end SampleMethods.Text
