import Mathlib.Data.List.Nodup
import Mathlib.Data.Prod.Lex
import Mathlib.Data.String.Basic
import SampleMethods.Proofs.LineNumber
import SampleMethods.Proofs.Region.Track
import SampleMethods.Proofs.Sorting
import SampleMethods.Region

/-!
# The regions of a text

The regions of a text are read off by one pass with one stack for all tags. Seen
through one tag, that pass pairs the marks of the tag as if there were no other
one (`trackOf_run`). So the regions with a tag are the pairs of its marks, whatever
markers of other tags stand between them, and since a line has at most one marker
no two regions start on the same line (`extract_pairs`).
-/

set_option autoImplicit false

namespace SampleMethods.Region

open Marker (Edge)

/-! ## What a line is for a tag -/

/-- The edge of a region with the tag that a line marks. The start marker of a line hides a
finish marker on it. -/
def edgeOf? (tag : String) (line : List Char) : Option Edge :=
  match Marker.tag? Edge.start.opening line, Marker.tag? Edge.finish.opening line with
  | some started, _ => if started = tag.toList then some .start else none
  | none, some finished => if finished = tag.toList then some .finish else none
  | none, none => none

/-- The edges of regions with the tag, line by line. -/
def marks (tag : String) (text : List Char) : List (Option Edge) :=
  (Text.splitLines text).map (edgeOf? tag)

/-- The edge that a marker is for a tag. -/
def edgeFor? (tag : String) (marker : Marker) : Option Edge :=
  if marker.tag = tag then some marker.edge else none

theorem edgeOf?_eq (tag : String) (line : List Char) :
    edgeOf? tag line = (Marker.ofLine? line).bind (edgeFor? tag) := by
  unfold edgeOf? Marker.ofLine? Marker.ofLineAt?
  cases Marker.tag? Edge.start.opening line with
  | some started => simp [edgeFor?, String.ofList_eq]
  | none =>
      cases Marker.tag? Edge.finish.opening line with
      | some finished => simp [edgeFor?, String.ofList_eq]
      | none => rfl

/-- A line is an edge for one tag only. -/
theorem edgeOf?_tag_unique {first second : String} {line : List Char} {edge other : Edge}
    (one : edgeOf? first line = some edge) (two : edgeOf? second line = some other) :
    first = second := by
  rw [edgeOf?_eq] at one two
  obtain ⟨marker, isMarker, forFirst⟩ := Option.bind_eq_some_iff.mp one
  rw [isMarker, Option.bind_some] at two
  unfold edgeFor? at forFirst two
  split at forFirst
  · split at two
    · rename_i isFirst isSecond
      exact isFirst.symm.trans isSecond
    · cases two
  · cases forFirst

/-- A marked number is that of a line. -/
theorem markAt_marks {tag : String} {text : List Char} {number : ℕ} {edge : Edge} :
    markAt (marks tag text) number = some edge ↔
      ∃ index line, number = index + 1 ∧ (Text.splitLines text)[index]? = some line ∧
        edgeOf? tag line = some edge := by
  cases number with
  | zero => simp [markAt]
  | succ index => simp [markAt, marks, Option.join_eq_some_iff]

/-! ## One tag of a scan -/

/-- What a scan knows of one tag. -/
def trackOf (tag : String) (scan : Scan) : Track where
  opened := (scan.opened.filter (·.tag = tag)).map (·.line.toNat)
  closed := (scan.closed.filter (·.tag = tag)).map fun region =>
    (region.startLine.toNat, region.endLine.toNat)

theorem takeOpened_eq_none {tag : String} : ∀ {opened : List Loose},
    takeOpened tag opened = none → opened.filter (·.tag = tag) = []
  | [], _ => rfl
  | loose :: rest, nothing => by
      rw [takeOpened] at nothing
      split at nothing
      · cases nothing
      · rename_i differs
        rw [List.filter_cons_of_neg (by simpa using differs)]
        exact takeOpened_eq_none (Option.map_eq_none_iff.mp nothing)

/-- The latest open start with a tag is taken away, and all others stay in their order. -/
theorem takeOpened_eq_some {tag : String} {start : Loose} :
    ∀ {opened others : List Loose}, takeOpened tag opened = some (start, others) →
      opened.filter (·.tag = tag) = start :: others.filter (·.tag = tag) ∧
        ∀ other, other ≠ tag → opened.filter (·.tag = other) = others.filter (·.tag = other)
  | [], others, found => by cases found
  | loose :: rest, others, found => by
      rw [takeOpened] at found
      split at found
      · rename_i same
        cases found
        refine ⟨List.filter_cons_of_pos (by simpa using same), fun other differs => ?_⟩
        exact List.filter_cons_of_neg (by simpa [same] using differs.symm)
      · rename_i differs
        obtain ⟨⟨taken, left⟩, inRest, same⟩ := Option.map_eq_some_iff.mp found
        cases same
        obtain ⟨ofTag, ofOthers⟩ := takeOpened_eq_some inRest
        constructor
        · rw [List.filter_cons_of_neg (by simpa using differs), ofTag,
            List.filter_cons_of_neg (by simpa using differs)]
        · intro other otherDiffers
          rw [List.filter_cons, List.filter_cons, ofOthers other otherDiffers]

/-- **A marker is a step of the pairing of its own tag, and none of that of any other.** -/
theorem trackOf_step (tag : String) (scan : Scan) (line : LineNumber) (marker : Marker) :
    trackOf tag (scan.step line marker) =
      (trackOf tag scan).step line.toNat (edgeFor? tag marker) := by
  obtain ⟨edge, markerTag⟩ := marker
  cases edge with
  | start =>
      by_cases same : markerTag = tag <;>
        simp [Scan.step, trackOf, edgeFor?, Track.step, same]
  | finish =>
      cases taken : takeOpened markerTag scan.opened with
      | none =>
          have nothing := takeOpened_eq_none taken
          by_cases same : markerTag = tag
          · subst same
            simp [Scan.step, trackOf, edgeFor?, Track.step, taken, nothing]
          · simp [Scan.step, trackOf, edgeFor?, Track.step, taken, same]
      | some found =>
          obtain ⟨start, others⟩ := found
          obtain ⟨ofTag, ofOthers⟩ := takeOpened_eq_some taken
          by_cases same : markerTag = tag
          · subst same
            simp [Scan.step, trackOf, edgeFor?, Track.step, taken, ofTag]
          · have kept := ofOthers tag (Ne.symm same)
            simp [Scan.step, trackOf, edgeFor?, Track.step, taken, same, kept]

/-- What is known after one more line, which has the number. -/
def Scan.read (scan : Scan) (number : ℕ) (line : List Char) : Scan :=
  match Marker.ofLine? line with
  | some marker => scan.step (.ofNat number) marker
  | none => scan

theorem Scan.run_cons (scan : Scan) (number : ℕ) (line : List Char) (lines : List (List Char)) :
    scan.run number (line :: lines) = (scan.read number line).run (number + 1) lines := rfl

/-- The number of a line as regions show it. -/
def shownLine (number : ℕ) : ℕ :=
  (LineNumber.ofNat number).toNat

theorem trackOf_read (tag : String) (scan : Scan) (number : ℕ) (line : List Char) :
    trackOf tag (scan.read number line) =
      (trackOf tag scan).step (shownLine number) (edgeOf? tag line) := by
  rw [edgeOf?_eq, Scan.read]
  cases Marker.ofLine? line with
  | none => rfl
  | some marker => exact trackOf_step tag scan (.ofNat number) marker

/-- **Seen through one tag, a scan pairs the marks of that tag.** -/
theorem trackOf_run (tag : String) :
    ∀ (lines : List (List Char)) {scan : Scan} {track : Track} (number : ℕ),
      trackOf tag scan = track.map shownLine →
        trackOf tag (scan.run number lines) =
          (track.run number (lines.map (edgeOf? tag))).map shownLine
  | [], _, _, _, same => same
  | line :: lines, scan, track, number, same => by
      rw [Scan.run_cons, List.map_cons, Track.run]
      refine trackOf_run tag lines (number + 1) ?_
      rw [trackOf_read, same, Track.map_step]

/-- The regions closed so far end above the line, each below the one before it. -/
def ClosedAbove (number : ℕ) (closed : List Region) : Prop :=
  closed.Pairwise (·.endLine.toNat < ·.endLine.toNat) ∧
    ∀ region ∈ closed, region.endLine.toNat < number

/-- A line closes at most one region, and that ends on it. -/
theorem ClosedAbove.step {number : ℕ} {scan : Scan} (above : ClosedAbove number scan.closed)
    {line : LineNumber} (atLine : line.toNat = number) (marker : Marker) :
    ClosedAbove (number + 1) (scan.step line marker).closed := by
  obtain ⟨sorted, bound⟩ := above
  have later : ∀ region ∈ scan.closed, region.endLine.toNat < number + 1 :=
    fun region member => (bound region member).trans (Nat.lt_succ_self _)
  unfold Scan.step
  split
  · exact ⟨sorted, later⟩
  · split
    · refine ⟨List.pairwise_append.mpr ⟨sorted, List.pairwise_singleton _ _, ?_⟩, ?_⟩
      · intro region member last isLast
        rw [List.mem_singleton.mp isLast, atLine]
        exact bound region member
      · intro region member
        rcases List.mem_append.mp member with earlier | isLast
        · exact later region earlier
        · rw [List.mem_singleton.mp isLast, atLine]
          exact Nat.lt_succ_self _
    · exact ⟨sorted, later⟩

theorem ClosedAbove.read {number : ℕ} {scan : Scan} (above : ClosedAbove number scan.closed)
    (fits : number < 2 ^ 32) (line : List Char) :
    ClosedAbove (number + 1) (scan.read number line).closed := by
  unfold Scan.read
  split
  · exact above.step (LineNumber.toNat_ofNat fits) _
  · exact ⟨above.1, fun region member => (above.2 region member).trans (Nat.lt_succ_self _)⟩

theorem ClosedAbove.run : ∀ (lines : List (List Char)) {scan : Scan} {number : ℕ},
    ClosedAbove number scan.closed → number + lines.length ≤ 2 ^ 32 →
      ClosedAbove (number + lines.length) (scan.run number lines).closed
  | [], _, _, above, _ => above
  | line :: lines, scan, number, above, fits => by
      rw [List.length_cons] at fits
      have further := (above.read (by omega) line).run lines (by omega)
      rw [Scan.run_cons, List.length_cons, Nat.add_comm lines.length, ← Nat.add_assoc]
      exact further

/-! ## The regions -/

/-- What regions are sorted by. -/
def sortKey (region : Region) : ℕ ×ₗ String :=
  toLex (region.startLine.toNat, region.tag)

theorem isAtMost_comparesBy : ComparesBy sortKey isAtMost := by
  rintro ⟨firstTag, ⟨firstStart, _⟩, firstEnd⟩ ⟨secondTag, ⟨secondStart, _⟩, secondEnd⟩
  simp only [isAtMost, sortKey, Prod.Lex.toLex_le_toLex, LineNumber.mk.injEq,
    LineNumber.isAtMost]
  split
  · rename_i same
    simp only [same, lt_irrefl, false_or, true_and, Bool.not_eq_true', decide_eq_false_iff_not,
      not_lt]
  · rename_i differs
    simp only [differs, false_and, or_false, decide_eq_true_eq]
    exact ⟨fun below => lt_of_le_of_ne below differs, le_of_lt⟩

/-- A region was closed exactly when it shows two lines that are paired for its tag. -/
theorem mem_closed_iff_exists {text : List Char} {region : Region} :
    region ∈ (scan text).closed ↔
      ∃ first last, IsPair (marks region.tag text) first last ∧
        region.startLine = .ofNat first ∧ region.endLine = .ofNat last := by
  have paired := Track.describes_run (marks region.tag text)
  have ofTag : trackOf region.tag (scan text) =
      (Track.empty.run 1 (marks region.tag text)).map shownLine :=
    trackOf_run region.tag (Text.splitLines text) 1 rfl
  have sameClosed := congrArg Track.closed ofTag
  obtain ⟨tag, startLine, endLine⟩ := region
  constructor
  · intro member
    have shown : (startLine.toNat, endLine.toNat) ∈ (trackOf tag (scan text)).closed :=
      List.mem_map.mpr ⟨_, List.mem_filter.mpr ⟨member, decide_eq_true rfl⟩, rfl⟩
    rw [sameClosed] at shown
    obtain ⟨⟨first, last⟩, isPair, same⟩ := List.mem_map.mp shown
    obtain ⟨sameStart, sameEnd⟩ := Prod.mk.inj same
    exact ⟨first, last, (paired.closed first last).mp isPair,
      LineNumber.toNat_injective sameStart.symm, LineNumber.toNat_injective sameEnd.symm⟩
  · rintro ⟨first, last, isPair, rfl, rfl⟩
    have shown : (shownLine first, shownLine last) ∈ (trackOf tag (scan text)).closed := by
      rw [sameClosed]
      exact List.mem_map.mpr ⟨_, (paired.closed first last).mpr isPair, rfl⟩
    obtain ⟨⟨otherTag, start, finish⟩, isMember, sameLines⟩ := List.mem_map.mp shown
    obtain ⟨closed, sameTag⟩ := List.mem_filter.mp isMember
    obtain ⟨sameStart, sameEnd⟩ := Prod.mk.inj sameLines
    obtain rfl : otherTag = tag := of_decide_eq_true sameTag
    obtain rfl := LineNumber.toNat_injective sameStart
    obtain rfl := LineNumber.toNat_injective sameEnd
    exact closed

/-- In a text whose lines can be counted, a region was closed exactly when its lines are paired
for its tag. -/
theorem mem_closed_iff {text : List Char} (fits : (Text.splitLines text).length < 2 ^ 32)
    {region : Region} :
    region ∈ (scan text).closed ↔
      IsPair (marks region.tag text) region.startLine.toNat region.endLine.toNat := by
  rw [mem_closed_iff_exists]
  constructor
  · rintro ⟨first, last, isPair, startEq, endEq⟩
    have within := le_length_of_markAt isPair.finish
    have before := isPair.before
    rw [marks, List.length_map] at within
    rw [startEq, endEq, LineNumber.toNat_ofNat (by omega), LineNumber.toNat_ofNat (by omega)]
    exact isPair
  · intro isPair
    exact ⟨_, _, isPair, (LineNumber.ofNat_toNat _).symm, (LineNumber.ofNat_toNat _).symm⟩

/-- A text has a region just if it has the markers for it: those of its tag on two lines that are
paired. -/
theorem mem_extract_iff {text : List Char} {region : Region} :
    region ∈ extract text ↔
      ∃ first last, IsPair (marks region.tag text) first last ∧
        region.startLine = .ofNat first ∧ region.endLine = .ofNat last := by
  rw [extract, List.mem_mergeSort, mem_closed_iff_exists]

/-- Regions that start on the same line are the same. -/
theorem closed_start_unique {text : List Char} (fits : (Text.splitLines text).length < 2 ^ 32)
    {first second : Region} (isFirst : first ∈ (scan text).closed)
    (isSecond : second ∈ (scan text).closed)
    (sameStart : first.startLine.toNat = second.startLine.toNat) : first = second := by
  have firstPair := (mem_closed_iff fits).mp isFirst
  have secondPair := (mem_closed_iff fits).mp isSecond
  rw [sameStart] at firstPair
  obtain ⟨index, line, atIndex, isLine, marked⟩ := markAt_marks.mp firstPair.start
  obtain ⟨otherIndex, otherLine, atOther, isOther, otherMarked⟩ :=
    markAt_marks.mp secondPair.start
  obtain rfl : index = otherIndex := by omega
  rw [isLine, Option.some.injEq] at isOther
  subst isOther
  have sameTag := edgeOf?_tag_unique marked otherMarked
  rw [sameTag] at firstPair
  have sameEnd := firstPair.last_unique secondPair
  obtain ⟨firstTag, ⟨firstStart, _⟩, ⟨firstEnd, _⟩⟩ := first
  obtain ⟨secondTag, ⟨secondStart, _⟩, ⟨secondEnd, _⟩⟩ := second
  simp only at sameTag sameStart sameEnd
  subst sameTag sameStart sameEnd
  rfl

/-- **The regions of a text are the pairs of its marks, tag by tag.** Each of them comes up once,
and they stand in the order of their start lines, no two of which are the same. -/
theorem extract_pairs (text : List Char) (fits : (Text.splitLines text).length < 2 ^ 32) :
    (∀ region, region ∈ extract text ↔
      IsPair (marks region.tag text) region.startLine.toNat region.endLine.toNat) ∧
    (extract text).Nodup ∧
    (extract text).Pairwise (·.startLine.toNat < ·.startLine.toNat) := by
  have above : ClosedAbove (1 + (Text.splitLines text).length) (scan text).closed :=
    ClosedAbove.run (Text.splitLines text) ⟨List.Pairwise.nil, nofun⟩ (by omega)
  have closedOnce : (scan text).closed.Nodup := above.1.imp fun below same => by
    rw [same] at below
    exact absurd below (Nat.lt_irrefl _)
  have startsOnce : ((scan text).closed.map sortKey).Nodup :=
    List.Nodup.map_on (fun first isFirst second isSecond same =>
      closed_start_unique fits isFirst isSecond (congrArg (·.1) (toLex.injective same))) closedOnce
  refine ⟨fun region => ?_, (List.mergeSort_perm _ _).nodup_iff.mpr closedOnce, ?_⟩
  · rw [extract, List.mem_mergeSort]
    exact mem_closed_iff fits
  · have sorted := isAtMost_comparesBy.strictlySorted startsOnce
    refine sorted.imp_of_mem fun {first second} isFirst isSecond below => ?_
    rcases Prod.Lex.toLex_lt_toLex.mp below with startBelow | ⟨sameStart, _⟩
    · exact startBelow
    · have same := closed_start_unique fits (List.mem_mergeSort.mp isFirst)
        (List.mem_mergeSort.mp isSecond) sameStart
      rw [same] at below
      exact absurd below (lt_irrefl _)

/-- Nested regions of one tag, and a region of another tag that begins between them and ends
behind both. -/
def crossingText : List Char :=
  "// [START a]\n# [START a]\n// [START b]\n * [END a]\n/* [END a] */\n// [END b]\n".toList

theorem extract_pairs_crossing :
    (Text.splitLines crossingText).length < 2 ^ 32 ∧
      (⟨"a", .ofNat 1, .ofNat 5⟩ : Region) ∈ extract crossingText ∧
      (⟨"a", .ofNat 1, .ofNat 4⟩ : Region) ∉ extract crossingText ∧
      (⟨"b", .ofNat 3, .ofNat 6⟩ : Region) ∈ extract crossingText := by
  have pairs := (extract_pairs crossingText (by decide)).1
  refine ⟨by decide, ?_, ?_, ?_⟩
  · exact (pairs _).mpr ⟨by decide, by decide, by decide, by decide⟩
  · intro member
    exact absurd ((pairs _).mp member).balanced (by decide)
  · exact (pairs _).mpr ⟨by decide, by decide, by decide, by decide⟩

end SampleMethods.Region
