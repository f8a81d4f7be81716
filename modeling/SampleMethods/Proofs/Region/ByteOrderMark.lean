import SampleMethods.Proofs.Region.Pairing
import SampleMethods.Proofs.Text.Line

/-!
# Regions behind a byte order mark

A text may begin with a byte order mark, which is not blank. So its first line carries no
marker, whatever it would carry without the mark, and all other lines are as they were. If
the first line has a start marker, this stays at the bottom of the stack as long as its
finish marker has not come, and no marker above it is paired in another way
(`LacksFirst.step`). So behind the mark a text has the regions that it has without, apart from
one that starts on the first line (`extract_behindByteOrderMark`), and such a region is lost
(`not_extract_behindByteOrderMark`).
-/

set_option autoImplicit false

namespace SampleMethods

namespace Text

/-- The mark that a text may begin with, which tells the order of its bytes. -/
def byteOrderMark : Char := '\ufeff'

end Text

/-- A line that begins with a byte order mark is not taken for a comment. -/
theorem Marker.ofLine?_behindMark (line : List Char) :
    Marker.ofLine? (Text.byteOrderMark :: line) = none := by
  have notBlank : ¬Text.isBlank Text.byteOrderMark = true := by decide
  have noComment : isComment (Text.byteOrderMark :: line) = false := rfl
  have noTag : ∀ opening, tag? opening (Text.byteOrderMark :: line) = none := by
    intro opening
    rw [tag?, Text.trimStart, List.dropWhile_cons_of_neg notBlank, noComment]
    rfl
  rw [ofLine?, ofLineAt?, ofLineAt?, noTag, noTag]
  rfl

namespace Region

/-! ## A scan without the first line -/

theorem takeOpened_subset {tag : String} {opened others : List Loose} {start : Loose}
    (taken : takeOpened tag opened = some (start, others)) :
    start ∈ opened ∧ others ⊆ opened := by
  induction opened generalizing others with
  | nil => cases taken
  | cons loose rest ih =>
      rw [takeOpened] at taken
      split at taken
      · cases taken
        exact ⟨List.mem_cons_self, List.subset_cons_self _ _⟩
      · obtain ⟨⟨found, left⟩, inRest, same⟩ := Option.map_eq_some_iff.mp taken
        cases same
        obtain ⟨member, subset⟩ := ih inRest
        exact ⟨List.mem_cons_of_mem _ member, List.cons_subset_cons _ subset⟩

/-- What the upper part of a stack has nothing of is taken from the lower part. -/
theorem takeOpened_append (tag : String) (upper bottom : List Loose) :
    takeOpened tag (upper ++ bottom) =
      ((takeOpened tag upper).map fun (found, others) => (found, others ++ bottom)).or
        ((takeOpened tag bottom).map fun (found, others) => (found, upper ++ others)) := by
  induction upper with
  | nil => simp [takeOpened]
  | cons loose rest ih =>
      rw [List.cons_append, takeOpened, takeOpened, ih]
      split
      · rfl
      · cases takeOpened tag rest with
        | some _ => rfl
        | none =>
            rw [Option.map_none, Option.map_none, Option.map_none, Option.none_or, Option.none_or,
              Option.map_map]
            rfl

/-- The second scan is the first one without the markers of the first line: these are at the
bottom of the stack if they are open, and start those regions which the second scan lacks. -/
structure Scan.LacksFirst (full rest : Scan) : Prop where
  opened : ∃ bottom, full.opened = rest.opened ++ bottom ∧ ∀ loose ∈ bottom, loose.line = .ofNat 1
  later : ∀ loose ∈ rest.opened, loose.line ≠ .ofNat 1
  closed : rest.closed = full.closed.filter (·.startLine ≠ .ofNat 1)

namespace Scan.LacksFirst

variable {full rest : Scan}

/-- **A marker on a further line keeps the first line apart.** -/
theorem step (lacks : LacksFirst full rest) {line : LineNumber} (further : line ≠ .ofNat 1)
    (marker : Marker) : LacksFirst (full.step line marker) (rest.step line marker) := by
  obtain ⟨⟨bottom, openedEq, first⟩, later, closedEq⟩ := lacks
  obtain ⟨edge, tag⟩ := marker
  cases edge with
  | start =>
      refine ⟨⟨bottom, ?_, first⟩, List.forall_mem_cons.mpr ⟨further, later⟩, closedEq⟩
      simp only [Scan.step, openedEq, List.cons_append]
  | finish =>
      have takenFull := takeOpened_append tag rest.opened bottom
      rw [← openedEq] at takenFull
      cases taken : takeOpened tag rest.opened with
      | some found =>
          obtain ⟨start, others⟩ := found
          obtain ⟨isOpen, areOpen⟩ := takeOpened_subset taken
          rw [taken, Option.map_some, Option.some_or] at takenFull
          simp only [Scan.step, taken, takenFull]
          refine ⟨⟨bottom, rfl, first⟩, fun loose member => later loose (areOpen member), ?_⟩
          rw [List.filter_append, closedEq, List.filter_cons_of_pos (by simp [later start isOpen])]
          rfl
      | none =>
          rw [taken, Option.map_none, Option.none_or] at takenFull
          cases takenFirst : takeOpened tag bottom with
          | some found =>
              obtain ⟨start, others⟩ := found
              obtain ⟨isFirst, areFirst⟩ := takeOpened_subset takenFirst
              rw [takenFirst, Option.map_some] at takenFull
              simp only [Scan.step, taken, takenFull]
              refine ⟨⟨others, rfl, fun loose member => first loose (areFirst member)⟩, later, ?_⟩
              rw [List.filter_append, closedEq, List.filter_cons_of_neg (by simp [first start isFirst]),
                List.filter_nil, List.append_nil]
          | none =>
              rw [takenFirst, Option.map_none] at takenFull
              simp only [Scan.step, taken, takenFull]
              exact ⟨⟨bottom, openedEq, first⟩, later, closedEq⟩

theorem read (lacks : LacksFirst full rest) {number : ℕ} (further : 1 < number)
    (line : List Char) : LacksFirst (full.read number line) (rest.read number line) := by
  rw [Scan.read, Scan.read]
  cases Marker.ofLine? line with
  | none => exact lacks
  | some marker =>
      refine lacks.step (fun same => ?_) marker
      have shown := congrArg LineNumber.toNat same
      rw [LineNumber.toNat_ofNat_eq_min, LineNumber.toNat_ofNat_eq_min] at shown
      omega

/-- **And so do all further lines.** -/
theorem run (lacks : LacksFirst full rest) {number : ℕ} (further : 1 < number)
    (lines : List (List Char)) : LacksFirst (full.run number lines) (rest.run number lines) := by
  induction lines generalizing full rest number with
  | nil => exact lacks
  | cons line lines ih =>
      rw [Scan.run_cons, Scan.run_cons]
      exact ih (lacks.read further line) (Nat.lt_succ_of_lt further)

/-- Nothing has been read. -/
theorem empty : LacksFirst ⟨[], [], []⟩ ⟨[], [], []⟩ :=
  ⟨⟨[], rfl, by simp⟩, by simp, rfl⟩

/-- Nothing but the first line has been read. -/
theorem ofFirst (line : List Char) : LacksFirst (Scan.read ⟨[], [], []⟩ 1 line) ⟨[], [], []⟩ := by
  rw [Scan.read]
  cases Marker.ofLine? line with
  | none => exact empty
  | some marker =>
      obtain ⟨edge, tag⟩ := marker
      cases edge with
      | start => exact ⟨⟨_, rfl, by simp⟩, by simp, rfl⟩
      | finish => exact ⟨⟨[], rfl, by simp⟩, by simp, rfl⟩

end Scan.LacksFirst

/-! ## The regions -/

theorem lacksFirst_scan_behindMark (text : List Char) :
    (scan text).LacksFirst (scan (Text.byteOrderMark :: text)) := by
  rw [scan, scan, Text.splitLines_cons (by decide) (by decide), Scan.run_cons, Scan.read,
    Marker.ofLine?_behindMark]
  cases Text.splitLines text with
  | nil => exact .empty
  | cons line lines => exact (Scan.LacksFirst.ofFirst line).run (by decide) lines

theorem extract_behindMark (text : List Char) :
    extract (Text.byteOrderMark :: text) =
      (extract text).filter (·.startLine ≠ .ofNat 1) := by
  rw [extract, extract, (lacksFirst_scan_behindMark text).closed,
    isAtMost_comparesBy.filter_mergeSort]

/-- **Behind a byte order mark a text has the same regions, apart from one that starts on its first
line.** So the mark does not matter just if no region starts there. -/
theorem extract_behindByteOrderMark (text : List Char) :
    extract (Text.byteOrderMark :: text) = (extract text).filter (·.startLine ≠ .ofNat 1) ∧
      (extract (Text.byteOrderMark :: text) = extract text ↔
        ∀ region ∈ extract text, region.startLine ≠ .ofNat 1) := by
  refine ⟨extract_behindMark text, ?_⟩
  rw [extract_behindMark, List.filter_eq_self]
  simp only [decide_eq_true_eq]

/-- **A byte order mark hides a region that starts on the first line.** -/
theorem not_extract_behindByteOrderMark :
    ¬∀ text : List Char, extract (Text.byteOrderMark :: text) = extract text := by
  intro same
  have regions : extract "// [START a]\n// [END a]\n".toList = [⟨"a", .ofNat 1, .ofNat 2⟩] := by
    have closed : (scan "// [START a]\n// [END a]\n".toList).closed =
        [⟨"a", .ofNat 1, .ofNat 2⟩] := by decide
    rw [extract, closed, List.mergeSort_singleton]
  have hidden := extract_behindMark "// [START a]\n// [END a]\n".toList
  rw [same, regions] at hidden
  exact absurd hidden (by decide)

end Region

end SampleMethods
