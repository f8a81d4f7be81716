import SampleMethods.LineNumber
import SampleMethods.Script.Tree

/-!
# Sample methods

The records that an analysis gives: a function with its name, the file it
stands in, the lines it covers, and the tags of the regions around it. There
are two orders of records, by line and name within a file and by file, line
and name over all, and both sorts are stable.
-/

set_option autoImplicit false

namespace SampleMethods

/-- A sample method that was found in a source file. -/
structure Method where
  name : String
  sourcePath : String
  startLine : LineNumber
  endLine : LineNumber
  regionTags : List String
deriving DecidableEq, Repr

namespace Method

/-- The first and last line of a span. -/
def linesOf (text : List Char) (span : Script.Span) : LineNumber × LineNumber :=
  let start := LineNumber.ofPosition text span.start
  (start, start.lower (LineNumber.ofPosition text span.stop))

/-- The record of a function whose declaration covers a span. -/
def ofSpan (text : List Char) (sourcePath name : String) (span : Script.Span) : Method where
  name := name
  sourcePath := sourcePath
  startLine := (linesOf text span).1
  endLine := (linesOf text span).2
  regionTags := []

/-! ## Orders -/

/-- Whether a record may stand before another one of the same file. -/
def isAtMostInFile (first second : Method) : Bool :=
  if first.startLine = second.startLine then !(second.name < first.name)
  else first.startLine.isAtMost second.startLine

/-- Whether a record may stand before another one. -/
def isAtMost (first second : Method) : Bool :=
  if first.sourcePath = second.sourcePath then first.isAtMostInFile second
  else first.sourcePath < second.sourcePath

/-- The records of a file in the order of their lines and names. -/
def sortInFile (methods : List Method) : List Method :=
  methods.mergeSort isAtMostInFile

/-- The records in the order of their files, lines and names. -/
def sort (methods : List Method) : List Method :=
  methods.mergeSort isAtMost

end Method

end SampleMethods
