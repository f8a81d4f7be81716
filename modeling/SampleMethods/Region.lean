import SampleMethods.Method
import SampleMethods.Region.Marker
import SampleMethods.Remark

/-!
# Regions

A region is a range of lines between a start marker and the finish marker that
belongs to it. A finish marker closes the latest open region with its tag, and
regions with other tags play no part in that. Markers that find no partner give
no region, but a remark each.
-/

set_option autoImplicit false

namespace SampleMethods

/-- A range of lines with a tag. Both marker lines belong to it. -/
structure Region where
  tag : String
  startLine : LineNumber
  endLine : LineNumber
deriving DecidableEq, Repr

namespace Region

/-- Whether the region covers every line of a method. -/
def encloses (region : Region) (method : Method) : Bool :=
  region.startLine.isAtMost method.startLine && method.endLine.isAtMost region.endLine

/-! ## Pairing markers -/

/-- A marker without a partner: its tag and its line. -/
structure Loose where
  tag : String
  line : LineNumber
deriving DecidableEq, Repr

/-- What is known after some lines of a text. `opened` holds the latest start first. -/
structure Scan where
  opened : List Loose
  closed : List Region
  stray : List Loose
deriving DecidableEq, Repr

/-- The latest open start with the tag, and the others. -/
def takeOpened (tag : String) : List Loose → Option (Loose × List Loose)
  | [] => none
  | loose :: rest =>
    if loose.tag = tag then some (loose, rest)
    else (takeOpened tag rest).map fun (found, others) => (found, loose :: others)

/-- What is known after one more line. -/
def Scan.step (scan : Scan) (line : LineNumber) (marker : Marker) : Scan :=
  match marker.edge with
  | .start => { scan with opened := ⟨marker.tag, line⟩ :: scan.opened }
  | .finish =>
    match takeOpened marker.tag scan.opened with
    | some (start, others) =>
      { scan with opened := others, closed := scan.closed ++ [⟨marker.tag, start.line, line⟩] }
    | none => { scan with stray := scan.stray ++ [⟨marker.tag, line⟩] }

/-- What is known after further lines, the first of which has the number. -/
def Scan.run : Scan → Nat → List (List Char) → Scan
  | scan, _, [] => scan
  | scan, number, line :: lines =>
    let scan := match Marker.ofLine? line with
      | some marker => scan.step (.ofNat number) marker
      | none => scan
    scan.run (number + 1) lines

/-- What is known after a whole text. -/
def scan (text : List Char) : Scan :=
  Scan.run ⟨[], [], []⟩ 1 (Text.splitLines text)

/-- Whether a region may stand before another one: by start line, then by tag. -/
def isAtMost (first second : Region) : Bool :=
  if first.startLine = second.startLine then !(second.tag < first.tag)
  else first.startLine.isAtMost second.startLine

/-- The regions of a text, in the order of their start lines. -/
def extract (text : List Char) : List Region :=
  (scan text).closed.mergeSort isAtMost

/-- What is to be said about the markers of a text that have no partner. -/
def remarks (text : List Char) : List Remark :=
  let scan := scan text
  let place (loose : Loose) := "line " ++ toString loose.line.toNat ++ ": "
  scan.stray.map (fun loose =>
      .debug .regions (place loose ++ "[END " ++ loose.tag ++ "] without matching START")) ++
    scan.opened.reverse.map fun loose =>
      .debug .regions (place loose ++ "[START " ++ loose.tag ++ "] is never closed")

/-! ## Attaching tags to methods -/

/-- A list without the elements that equal the one before them. -/
def dropRepeats : List String → List String
  | [] => []
  | [tag] => [tag]
  | first :: second :: rest =>
    if first = second then dropRepeats (second :: rest)
    else first :: dropRepeats (second :: rest)

/-- The tags in order, each of them once. -/
def canonicalTags (tags : List String) : List String :=
  dropRepeats (tags.mergeSort fun first second => !(second < first))

/-- The method with the tags of the regions around it added to its own. -/
def attachTo (regions : List Region) (method : Method) : Method :=
  let enclosing := regions.filter fun region => region.encloses method
  { method with regionTags := canonicalTags (method.regionTags ++ enclosing.map (·.tag)) }

/-- The methods with the tags of the regions around each of them. -/
def attach (regions : List Region) (methods : List Method) : List Method :=
  methods.map (attachTo regions)

end Region

end SampleMethods
