import SampleMethods.Json.Printer
import SampleMethods.Method.Record

/-!
# Reports

Methods as a table for people, as a JSON list, and as JSON records on a line
each.
-/

set_option autoImplicit false

namespace SampleMethods

/-- The form of a report. -/
inductive Report.Form where
  | table
  | list
  | lines
deriving DecidableEq, Repr, Inhabited

namespace Report

/-! ## Tables -/

/-- A text with blanks behind it, so that it is at least so wide. -/
def pad (width : Nat) (text : List Char) : List Char :=
  text ++ List.replicate (width - text.length) ' '

/-- What shows that a text has been cut. -/
def ellipsis : List Char := "...".toList

/-- A text that is exactly so wide: padded, or cut with an ellipsis at its end. -/
def fit (width : Nat) (text : List Char) : List Char :=
  if width < text.length then text.take (width - ellipsis.length) ++ ellipsis
  else pad width text

/-- A row of a table, from the texts of its four columns. -/
def row (file lines method tags : String) : String :=
  String.ofList (fit 40 file.toList ++ ' ' :: pad 10 lines.toList ++ ' ' ::
    fit 30 method.toList ++ ' ' :: tags.toList ++ ['\n'])

/-- The row of a method. -/
def rowOf (method : Method) : String :=
  row method.sourcePath
    (toString method.startLine.toNat ++ "-" ++ toString method.endLine.toNat)
    method.name
    (if method.regionTags.isEmpty then "-" else ", ".intercalate method.regionTags)

/-- Methods as a table with a heading. -/
def table (methods : List Method) : String :=
  String.join (row "FILE" "LINES" "METHOD" "REGION TAGS" :: methods.map rowOf)

/-! ## Records -/

/-- Methods as a JSON list over many lines. -/
def list (methods : List Method) : String :=
  (Json.array (methods.map Method.toJson)).pretty

/-- Methods as JSON records, each on one line. -/
def lines (methods : List Method) : String :=
  String.join (methods.map fun method => method.toJson.compact ++ "\n")

/-! ## Forms -/

namespace Form

/-- The name of a form. -/
def name : Form → String
  | table => "text"
  | list => "json"
  | lines => "jsonl"

/-- Every form, once. -/
def all : List Form :=
  [table, list, lines]

/-- The form with a name. -/
def ofName? (name : String) : Option Form :=
  all.find? fun form => form.name == name

/-- A report in the form. -/
def render (form : Form) (methods : List Method) : String :=
  match form with
  | table => Report.table methods
  | list => Report.list methods
  | lines => Report.lines methods

end Form

end Report

end SampleMethods
