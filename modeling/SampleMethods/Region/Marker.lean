import SampleMethods.Text.Blank
import SampleMethods.Text.Search

/-!
# Region markers

A line carries a marker when it looks like a comment and names a tag between an
opening such as `[START ` and the next closing bracket. Only the first opening
of a kind on a line is looked at: a malformed marker hides the good one behind
it.
-/

set_option autoImplicit false

namespace SampleMethods

/-- The edge of a region that a marker stands at. -/
inductive Marker.Edge where
  | start
  | finish
deriving DecidableEq, Repr

/-- A marker: the edge it stands at, and the tag of the region. -/
structure Marker where
  edge : Marker.Edge
  tag : String
deriving DecidableEq, Repr

namespace Marker

/-- What stands in front of the tag. -/
def Edge.opening : Edge → List Char
  | .start => "[START ".toList
  | .finish => "[END ".toList

/-- What a line can start with that is taken for a comment. -/
def commentOpenings : List (List Char) :=
  ["//".toList, "/*".toList, "*".toList, "#".toList]

/-- Whether a line without its leading blanks looks like a comment. -/
def isComment (line : List Char) : Bool :=
  commentOpenings.any fun opening => opening.isPrefixOf line

/-- The tag behind an opening on a line, if the line carries a marker with it. -/
def tag? (opening line : List Char) : Option (List Char) := do
  let comment := Text.trimStart line
  unless isComment comment do
    none
  let behind ← Text.behindFirst? opening comment
  let tag := Text.trim (← Text.beforeFirst? ']' behind)
  if tag.isEmpty || tag.any Text.isBlank then none else some tag

/-- The marker of an edge that a line carries. -/
def ofLineAt? (edge : Edge) (line : List Char) : Option Marker :=
  (tag? edge.opening line).map fun tag => ⟨edge, String.ofList tag⟩

/-- The marker that a line carries. A line with markers of both edges counts as a start. -/
def ofLine? (line : List Char) : Option Marker :=
  (ofLineAt? .start line).or (ofLineAt? .finish line)

end Marker

end SampleMethods
