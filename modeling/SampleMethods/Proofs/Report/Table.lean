import Mathlib.Data.List.Forall2
import SampleMethods.Proofs.Text.Split
import SampleMethods.Report

/-!
# The columns of a table

A table is a heading and a line for each method, in their order, as long as no text of a
method has a line feed. The cells of files and names are exactly as wide as their columns,
because a text that is too long is cut. The cell of line numbers is never cut, so it pushes
what follows it to the right by as much as it is too long (`table_columns`): from line ten
thousand on the columns of a table may be out of line (`not_table_fixedColumns`).
-/

set_option autoImplicit false

namespace SampleMethods

/-- No text of the method goes on over a line feed. -/
structure Method.IsUnbroken (method : Method) : Prop where
  sourcePath : '\n' ∉ method.sourcePath.toList
  name : '\n' ∉ method.name.toList
  regionTags : ∀ tag ∈ method.regionTags, '\n' ∉ tag.toList

namespace Report

/-! ## Cells -/

/-- A cell of exactly the width that shows a text, whole if it fits, and otherwise by its first
characters and three points. -/
structure IsCell (width : ℕ) (text cell : List Char) : Prop where
  length_eq : cell.length = width
  whole : text.length ≤ width →
    ∃ blanks, cell = text ++ blanks ∧ ∀ character ∈ blanks, character = ' '
  cut : width < text.length → cell = text.take (width - 3) ++ ['.', '.', '.']

/-- A cell of at least the width that shows the whole text. -/
structure IsUncutCell (width : ℕ) (text cell : List Char) : Prop where
  length_eq : cell.length = max width text.length
  whole : ∃ blanks, cell = text ++ blanks ∧ ∀ character ∈ blanks, character = ' '

section Cells

variable {width : ℕ} {text : List Char}

theorem isUncutCell_pad : IsUncutCell width text (pad width text) where
  length_eq := by
    rw [pad, List.length_append, List.length_replicate]
    omega
  whole := ⟨_, rfl, fun _ member => List.eq_of_mem_replicate member⟩

theorem isCell_fit (wide : 3 ≤ width) : IsCell width text (fit width text) := by
  rcases Nat.lt_or_ge width text.length with beyond | within
  · rw [fit, if_pos beyond]
    refine ⟨?_, fun fits => absurd beyond (Nat.not_lt.mpr fits), fun _ => rfl⟩
    have points : ellipsis.length = 3 := rfl
    rw [List.length_append, List.length_take, points]
    omega
  · rw [fit, if_neg (Nat.not_lt.mpr within)]
    refine ⟨?_, fun _ => isUncutCell_pad.whole, fun cut => absurd cut (Nat.not_lt.mpr within)⟩
    rw [isUncutCell_pad.length_eq, Nat.max_eq_left within]

theorem not_mem_pad {character : Char} (notBlank : character ≠ ' ') (absent : character ∉ text) :
    character ∉ pad width text := by
  rw [pad, List.mem_append, not_or]
  exact ⟨absent, fun member => notBlank (List.eq_of_mem_replicate member)⟩

theorem not_mem_fit {character : Char} (notBlank : character ≠ ' ') (notPoint : character ≠ '.')
    (absent : character ∉ text) : character ∉ fit width text := by
  rw [fit]
  split_ifs
  · have points : character ∉ ellipsis := by simp [ellipsis, notPoint]
    rw [List.mem_append, not_or]
    exact ⟨fun member => absent (List.mem_of_mem_take member), points⟩
  · exact not_mem_pad notBlank absent

end Cells

/-! ## Rows -/

/-- The texts that a line of a table shows, column by column. -/
structure Row where
  file : String
  lines : String
  method : String
  tags : String

namespace Row

/-- The names of the columns. -/
def heading : Row :=
  ⟨"FILE", "LINES", "METHOD", "REGION TAGS"⟩

/-- What a table shows of a method. -/
def ofMethod (method : Method) : Row where
  file := method.sourcePath
  lines := toString method.startLine.toNat ++ "-" ++ toString method.endLine.toNat
  method := method.name
  tags := if method.regionTags = [] then "-" else ", ".intercalate method.regionTags

/-- No text of the row goes on over a line feed. -/
structure IsUnbroken (row : Row) : Prop where
  file : '\n' ∉ row.file.toList
  lines : '\n' ∉ row.lines.toList
  method : '\n' ∉ row.method.toList
  tags : '\n' ∉ row.tags.toList

end Row

/-- The cells of a line of a table. -/
structure Cells where
  file : List Char
  lines : List Char
  method : List Char
  tags : List Char

namespace Cells

variable (cells : Cells)

/-- The line, with a blank between every two cells. -/
def line : List Char :=
  cells.file ++ ' ' :: (cells.lines ++ ' ' :: (cells.method ++ ' ' :: cells.tags))

/-- The number of characters in front of the line numbers. -/
def linesAt : ℕ :=
  cells.file.length + 1

/-- The number of characters in front of the name of the method. -/
def methodAt : ℕ :=
  cells.linesAt + cells.lines.length + 1

/-- The number of characters in front of the tags. -/
def tagsAt : ℕ :=
  cells.methodAt + cells.method.length + 1

/-- The cells show the texts of a row. -/
structure Show (row : Row) : Prop where
  file : IsCell 40 row.file.toList cells.file
  lines : IsUncutCell 10 row.lines.toList cells.lines
  method : IsCell 30 row.method.toList cells.method
  tags : cells.tags = row.tags.toList

/-- The cells of a row. -/
def ofRow (row : Row) : Cells where
  file := fit 40 row.file.toList
  lines := pad 10 row.lines.toList
  method := fit 30 row.method.toList
  tags := row.tags.toList

theorem show_ofRow (row : Row) : (ofRow row).Show row where
  file := isCell_fit (by decide)
  lines := isUncutCell_pad
  method := isCell_fit (by decide)
  tags := rfl

variable {cells}

/-- **The columns behind the line numbers are pushed by as much as these are too long.** -/
theorem Show.offsets {row : Row} (shows : cells.Show row) :
    cells.linesAt = 41 ∧ cells.methodAt = 52 + (row.lines.length - 10) ∧
      cells.tagsAt = 83 + (row.lines.length - 10) := by
  have linesAt : cells.linesAt = 41 := by
    rw [Cells.linesAt, shows.file.length_eq]
  have methodAt : cells.methodAt = 52 + (row.lines.length - 10) := by
    rw [Cells.methodAt, linesAt, shows.lines.length_eq, String.length_toList]
    omega
  refine ⟨linesAt, methodAt, ?_⟩
  rw [Cells.tagsAt, methodAt, shows.method.length_eq]
  omega

theorem not_mem_line_ofRow {row : Row} (unbroken : row.IsUnbroken) : '\n' ∉ (ofRow row).line := by
  have notBlank : '\n' ≠ ' ' := by decide
  have notPoint : '\n' ≠ '.' := by decide
  simp only [line, List.mem_append, List.mem_cons, not_or]
  exact ⟨not_mem_fit notBlank notPoint unbroken.file, notBlank,
    not_mem_pad notBlank unbroken.lines, notBlank,
    not_mem_fit notBlank notPoint unbroken.method, notBlank, unbroken.tags⟩

end Cells

/-! ## The rows of a table -/

/-- The rows of a table of methods. -/
def rows (methods : List Method) : List Row :=
  .heading :: methods.map .ofMethod

theorem not_mem_intercalate {separator : String} {texts : List String} {character : Char}
    (notBetween : character ∉ separator.toList) (absent : ∀ text ∈ texts, character ∉ text.toList) :
    character ∉ (separator.intercalate texts).toList := by
  rw [String.toList_intercalate]
  induction texts with
  | nil => simp
  | cons text texts ih =>
      obtain ⟨here, others⟩ := List.forall_mem_cons.mp absent
      cases texts with
      | nil => simpa using here
      | cons second further =>
          rw [List.map_cons, List.map_cons, List.intercalate_cons_cons, List.mem_append,
            List.mem_append, not_or, not_or]
          exact ⟨⟨here, notBetween⟩, ih others⟩

theorem Row.isUnbroken_ofMethod {method : Method} (unbroken : method.IsUnbroken) :
    (Row.ofMethod method).IsUnbroken where
  file := unbroken.sourcePath
  lines := by
    have digits : ∀ number : ℕ, '\n' ∉ (toString number).toList := by
      intro number member
      rw [Nat.toString_eq_repr, Nat.repr_eq_ofList_toDigits, String.toList_ofList] at member
      exact absurd (Nat.isDigit_of_mem_toDigits (by decide) (by decide) member) (by decide)
    simp only [Row.ofMethod, String.toList_append, List.mem_append, not_or]
    exact ⟨⟨digits _, by decide⟩, digits _⟩
  method := unbroken.name
  tags := by
    have noTags : '\n' ∉ "-".toList := by decide
    rw [Row.ofMethod]
    split_ifs
    · exact noTags
    · exact not_mem_intercalate (by decide) unbroken.regionTags

theorem isUnbroken_of_mem_rows {methods : List Method}
    (unbroken : ∀ method ∈ methods, method.IsUnbroken) : ∀ row ∈ rows methods, row.IsUnbroken := by
  refine List.forall_mem_cons.mpr ⟨⟨by decide, by decide, by decide, by decide⟩, ?_⟩
  intro row member
  obtain ⟨method, isMethod, rfl⟩ := List.mem_map.mp member
  exact Row.isUnbroken_ofMethod (unbroken method isMethod)

/-- A table is written row by row. -/
theorem toList_table (methods : List Method) :
    (table methods).toList =
      (rows methods).flatMap fun row => (Cells.ofRow row).line ++ ['\n'] := by
  have written : ∀ row : Row, (Report.row row.file row.lines row.method row.tags).toList =
      (Cells.ofRow row).line ++ ['\n'] := by
    intro row
    rw [Report.row, String.toList_ofList]
    simp only [Cells.line, Cells.ofRow, List.append_assoc, List.cons_append]
  have ofMethod : ∀ method, (rowOf method).toList =
      (Cells.ofRow (.ofMethod method)).line ++ ['\n'] := by
    intro method
    rw [← written, rowOf]
    simp only [List.isEmpty_iff, Row.ofMethod]
  rw [table, String.toList_join, List.flatMap_cons, List.flatMap_map, rows, List.flatMap_cons,
    List.flatMap_map]
  simp only [ofMethod]
  rw [← written]
  rfl

/-- The cells are those of the lines of a table of the methods, and show its rows one by one. -/
structure IsTable (methods : List Method) (lines : List Cells) : Prop where
  cut : Text.cutAt '\n' (table methods).toList = lines.map Cells.line ++ [[]]
  shows : List.Forall₂ (fun row cells => cells.Show row) (rows methods) lines

theorem isTable_ofRows {methods : List Method} (unbroken : ∀ method ∈ methods, method.IsUnbroken) :
    IsTable methods ((rows methods).map Cells.ofRow) where
  cut := by
    rw [toList_table, List.map_map]
    refine Text.cutAt_flatMap_concat fun row isRow => ?_
    exact Cells.not_mem_line_ofRow (isUnbroken_of_mem_rows unbroken row isRow)
  shows := List.forall₂_map_right_iff.mpr (List.forall₂_same.mpr fun row _ => Cells.show_ofRow row)

/-- **A table has a heading and a line for each method, and its columns stand where they should
exactly as long as the line numbers fit.** The cells of files and names are as wide as their
columns. The line numbers have ten characters, and what they need beyond that moves the two
columns behind them. -/
theorem table_columns {methods : List Method} (unbroken : ∀ method ∈ methods, method.IsUnbroken) :
    ∃ lines, IsTable methods lines ∧
      List.Forall₂ (fun row cells => cells.linesAt = 41 ∧
        cells.methodAt = 52 + (row.lines.length - 10) ∧
        cells.tagsAt = 83 + (row.lines.length - 10)) (rows methods) lines := by
  have isTable := isTable_ofRows unbroken
  exact ⟨_, isTable, isTable.shows.imp fun _ _ shows => shows.offsets⟩

/-- The lines of this method are too far down for their column. -/
def farDown : Method :=
  ⟨"f", "a.js", .ofNat 10000, .ofNat 10000, []⟩

theorem isUnbroken_farDown : ∀ method ∈ [farDown], method.IsUnbroken := by
  rintro method (_ | ⟨_, none⟩)
  · exact ⟨by decide, by decide, by decide⟩
  · cases none

theorem table_columns_farDown :
    (∀ method ∈ [farDown], method.IsUnbroken) ∧
      ∃ heading line, IsTable [farDown] [heading, line] ∧
        heading.linesAt = 41 ∧ heading.methodAt = 52 ∧ heading.tagsAt = 83 ∧
        line.linesAt = 41 ∧ line.methodAt = 53 ∧ line.tagsAt = 84 := by
  refine ⟨isUnbroken_farDown, ?_⟩
  obtain ⟨lines, isTable, offsets⟩ := table_columns isUnbroken_farDown
  obtain _ | ⟨heading, _ | ⟨line, _ | _⟩⟩ := offsets
  exact ⟨_, _, isTable, heading.1, heading.2.1, heading.2.2, line.1, line.2.1, line.2.2⟩

/-- **The columns are not fixed.** -/
theorem not_table_fixedColumns :
    ¬∀ methods : List Method, (∀ method ∈ methods, method.IsUnbroken) →
      ∃ lines, IsTable methods lines ∧
        ∀ cells ∈ lines, cells.linesAt = 41 ∧ cells.methodAt = 52 ∧ cells.tagsAt = 83 := by
  intro fixed
  obtain ⟨lines, ⟨_, shows⟩, columns⟩ := fixed [farDown] isUnbroken_farDown
  obtain _ | ⟨_, _ | ⟨line, _⟩⟩ := shows
  have methodAt := (columns _ (.tail _ (.head _))).2.1
  rw [line.offsets.2.1] at methodAt
  exact absurd methodAt (by decide)

end Report

end SampleMethods
