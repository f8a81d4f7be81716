/-!
# Cutting and joining text

A text is cut at every occurrence of a mark, and joined again with a separator.
Cutting always gives at least one piece. A text may be one of characters or one of
bytes.
-/

set_option autoImplicit false

namespace SampleMethods.Text

variable {α : Type}

/-- The pieces of a text between the occurrences of a mark. -/
def cutAt [BEq α] (mark : α) : List α → List (List α)
  | [] => [[]]
  | character :: rest =>
    if character == mark then [] :: cutAt mark rest
    else
      match cutAt mark rest with
      | [] => [[character]]
      | piece :: pieces => (character :: piece) :: pieces

/-- The pieces with a separator between every two of them. -/
def join (separator : List α) : List (List α) → List α
  | [] => []
  | [piece] => piece
  | piece :: pieces => piece ++ separator ++ join separator pieces

end SampleMethods.Text
