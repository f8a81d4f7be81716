import Mathlib.Data.List.Sort
import Mathlib.Order.Bounds.Defs
import SampleMethods.Proofs.Region.Pairing

/-!
# Matchings of the marks of a tag

A matching joins starts to later finishes, with no mark in two pairs. There are
many of them, and the one that a stack finds has as many pairs as any other
(`IsMatching.length_le_closed`). The reason shows in what it leaves over: a finish
behind a start that is open would have been paired, so all finishes that are left
over come before all starts that are. For pairs that belong together this is the
same as having as many of them as possible (`isGreatest_iff_finishesFirst`).

The regions of a text with a tag are such a matching of its marks, whatever
markers of other tags stand between them, and no two regions of the text share a
marker (`extract_maximum`).
-/

set_option autoImplicit false

namespace SampleMethods.Region

open Marker (Edge)

/-- Starts that are joined to later finishes, with no mark in two pairs. -/
structure IsMatching (marks : List (Option Edge)) (pairs : List (ℕ × ℕ)) : Prop where
  start : ∀ pair ∈ pairs, markAt marks pair.1 = some .start
  finish : ∀ pair ∈ pairs, markAt marks pair.2 = some .finish
  before : ∀ pair ∈ pairs, pair.1 < pair.2
  startsOnce : (pairs.map (·.1)).Nodup
  finishesOnce : (pairs.map (·.2)).Nodup

/-- The sizes of the matchings of the marks. -/
def matchingSizes (marks : List (Option Edge)) : Set ℕ :=
  {size | ∃ pairs, IsMatching marks pairs ∧ pairs.length = size}

/-- Of the marks that are in no pair, every finish comes before every start. -/
def FinishesFirst (marks : List (Option Edge)) (pairs : List (ℕ × ℕ)) : Prop :=
  ∀ first last, markAt marks first = some .start → markAt marks last = some .finish →
    first ∉ pairs.map (·.1) → last ∉ pairs.map (·.2) → last < first

section Rows

variable {marks : List (Option Edge)}

/-! ## Marks that belong together -/

/-- At each depth one start is open. -/
theorem IsOpen.number_unique {first second depth : ℕ} (one : IsOpen marks first depth)
    (other : IsOpen marks second depth) : first = second := by
  have describes := Track.describes_run marks
  have atDepth := (describes.opened depth first).mpr one
  rw [(describes.opened depth second).mpr other] at atDepth
  exact (Option.some.inj atDepth).symm

/-- A finish has at most one start. -/
theorem IsPair.first_unique {first other last : ℕ} (pair : IsPair marks first last)
    (again : IsPair marks other last) : first = other := by
  induction marks using List.reverseRecOn with
  | nil => exact absurd pair.finish (by simp [markAt_nil])
  | append_singleton marks mark ih =>
      rcases isPair_concat.mp pair with earlier | ⟨_, atEnd, isTop⟩
      · rcases isPair_concat.mp again with earlierAgain | ⟨_, atEnd, _⟩
        · exact ih earlier earlierAgain
        · have within := le_length_of_markAt earlier.finish
          omega
      · rcases isPair_concat.mp again with earlierAgain | ⟨_, _, isTopToo⟩
        · have within := le_length_of_markAt earlierAgain.finish
          omega
        · exact isTop.number_unique isTopToo

/-- A start has its finish or is still open. -/
theorem exists_isPair_or_isOpen {first : ℕ} (start : markAt marks first = some .start) :
    (∃ last, IsPair marks first last) ∨ ∃ depth, IsOpen marks first depth := by
  induction marks using List.reverseRecOn with
  | nil => exact absurd start (by simp [markAt_nil])
  | append_singleton marks mark ih =>
      rcases markAt_concat_eq_some.mp start with ⟨rfl, rfl⟩ | earlier
      · exact .inr ⟨0, isOpen_concat_start.mpr (.inl ⟨rfl, rfl⟩)⟩
      · rcases ih earlier with ⟨last, pair⟩ | ⟨depth, isOpen⟩
        · exact .inl ⟨last, isPair_concat.mpr (.inl pair)⟩
        · match mark, depth with
          | none, depth => exact .inr ⟨depth, isOpen_concat_none.mpr isOpen⟩
          | some .start, depth =>
            exact .inr ⟨depth + 1, isOpen_concat_start.mpr (.inr ⟨depth, rfl, isOpen⟩)⟩
          | some .finish, 0 => exact .inl ⟨_, isPair_concat.mpr (.inr ⟨rfl, rfl, isOpen⟩)⟩
          | some .finish, depth + 1 => exact .inr ⟨depth, isOpen_concat_finish.mpr isOpen⟩

/-- Below an open start stands another one on top, if not the start itself. -/
theorem IsOpen.exists_top {first depth : ℕ} (isOpen : IsOpen marks first depth) :
    ∃ top, IsOpen marks top 0 := by
  have describes := Track.describes_run marks
  have atDepth := (describes.opened depth first).mpr isOpen
  cases starts : (Track.empty.run 1 marks).opened with
  | nil =>
      rw [starts] at atDepth
      cases atDepth
  | cons top others => exact ⟨top, (describes.opened 0 top).mp (by rw [starts]; rfl)⟩

/-- Of a start and a later finish at least one has its partner. -/
theorem exists_isPair_of_before {first last : ℕ} (start : markAt marks first = some .start)
    (finish : markAt marks last = some .finish) (before : first < last) :
    (∃ other, IsPair marks first other) ∨ ∃ other, IsPair marks other last := by
  induction marks using List.reverseRecOn with
  | nil => exact absurd finish (by simp [markAt_nil])
  | append_singleton marks mark ih =>
      rcases markAt_concat_eq_some.mp finish with ⟨rfl, rfl⟩ | earlier
      · rw [markAt_concat (by omega)] at start
        rcases exists_isPair_or_isOpen start with ⟨other, pair⟩ | ⟨depth, isOpen⟩
        · exact .inl ⟨other, isPair_concat.mpr (.inl pair)⟩
        · obtain ⟨top, isTop⟩ := isOpen.exists_top
          exact .inr ⟨top, isPair_concat.mpr (.inr ⟨rfl, rfl, isTop⟩)⟩
      · have within := le_length_of_markAt earlier
        rw [markAt_concat (by omega)] at start
        rcases ih start earlier with ⟨other, pair⟩ | ⟨other, pair⟩
        · exact .inl ⟨other, isPair_concat.mpr (.inl pair)⟩
        · exact .inr ⟨other, isPair_concat.mpr (.inl pair)⟩

/-- Pairs that belong together share no mark. -/
theorem isMatching_of_isPair {pairs : List (ℕ × ℕ)} (distinct : pairs.Nodup)
    (paired : ∀ pair ∈ pairs, IsPair marks pair.1 pair.2) : IsMatching marks pairs where
  start pair member := (paired pair member).start
  finish pair member := (paired pair member).finish
  before pair member := (paired pair member).before
  startsOnce := by
    refine distinct.map_on fun one isOne other isOther same => Prod.ext same ?_
    have again := paired other isOther
    rw [← same] at again
    exact (paired one isOne).last_unique again
  finishesOnce := by
    refine distinct.map_on fun one isOne other isOther same => Prod.ext ?_ same
    have again := paired other isOther
    rw [← same] at again
    exact (paired one isOne).first_unique again

/-! ## The pairs of a stack -/

namespace IsMatching

variable {mark : Option Edge} {pairs : List (ℕ × ℕ)}

theorem sublist {fewer : List (ℕ × ℕ)} (matching : IsMatching marks pairs)
    (isSublist : fewer.Sublist pairs) : IsMatching marks fewer where
  start pair member := matching.start pair (isSublist.subset member)
  finish pair member := matching.finish pair (isSublist.subset member)
  before pair member := matching.before pair (isSublist.subset member)
  startsOnce := matching.startsOnce.sublist (isSublist.map _)
  finishesOnce := matching.finishesOnce.sublist (isSublist.map _)

theorem last_le (matching : IsMatching (marks ++ [mark]) pairs) {pair : ℕ × ℕ}
    (member : pair ∈ pairs) : pair.2 ≤ marks.length + 1 := by
  rcases markAt_concat_eq_some.mp (matching.finish pair member) with ⟨atEnd, _⟩ | earlier
  · exact Nat.le_of_eq atEnd
  · exact (le_length_of_markAt earlier).trans (Nat.le_succ _)

/-- Pairs that end before the last mark are pairs of the marks before it. -/
theorem of_concat (matching : IsMatching (marks ++ [mark]) pairs)
    (within : ∀ pair ∈ pairs, pair.2 ≤ marks.length) : IsMatching marks pairs where
  start pair member := by
    have before := matching.before pair member
    have last := within pair member
    rw [← matching.start pair member, markAt_concat (by omega)]
  finish pair member := by
    rw [← matching.finish pair member, markAt_concat (within pair member)]
  before := matching.before
  startsOnce := matching.startsOnce
  finishesOnce := matching.finishesOnce

/-- A mark that is no finish ends no pair. -/
theorem of_concat_of_ne (matching : IsMatching (marks ++ [mark]) pairs)
    (noFinish : mark ≠ some .finish) : IsMatching marks pairs := by
  refine matching.of_concat fun pair member => ?_
  rcases markAt_concat_eq_some.mp (matching.finish pair member) with ⟨_, isFinish⟩ | earlier
  · exact absurd isFinish noFinish
  · exact le_length_of_markAt earlier

/-- The last mark ends one pair at most. -/
theorem exists_of_concat (matching : IsMatching (marks ++ [mark]) pairs) :
    ∃ earlier, IsMatching marks earlier ∧ pairs.length ≤ earlier.length + 1 := by
  refine ⟨pairs.filter (·.2 ≤ marks.length), ?_, ?_⟩
  · refine (matching.sublist List.filter_sublist).of_concat fun pair kept => ?_
    exact of_decide_eq_true (List.mem_filter.mp kept).2
  · have atEnd : (pairs.filter fun pair => !decide (pair.2 ≤ marks.length)).map (·.2) ⊆
        [marks.length + 1] := by
      intro last isLast
      obtain ⟨pair, kept, rfl⟩ := List.mem_map.mp isLast
      obtain ⟨member, beyond⟩ := List.mem_filter.mp kept
      have bound := matching.last_le member
      rw [Bool.not_eq_true', decide_eq_false_iff_not] at beyond
      exact List.mem_singleton.mpr (by omega)
    have once := matching.finishesOnce.sublist ((List.filter_sublist
      (p := fun pair : ℕ × ℕ => !decide (pair.2 ≤ marks.length))).map (·.2))
    have atMostOne := (List.subperm_of_subset once atEnd).length_le
    rw [List.length_map, List.length_singleton] at atMostOne
    rw [List.length_eq_length_filter_add (·.2 ≤ marks.length)]
    exact Nat.add_le_add_left atMostOne _

/-- **No matching has more pairs than the stack finds.** A mark that makes a matching larger is a
finish, and the stack has a start for it, unless every start has its finish already. -/
theorem length_le_closed (matching : IsMatching marks pairs) :
    pairs.length ≤ (Track.empty.run 1 marks).closed.length := by
  induction marks using List.reverseRecOn generalizing pairs with
  | nil =>
      cases pairs with
      | nil => exact Nat.le_refl _
      | cons pair pairs =>
          exact absurd (matching.start pair List.mem_cons_self) (by simp [markAt_nil])
  | append_singleton marks mark ih =>
      rw [Track.run_concat]
      match mark with
      | none => exact ih (matching.of_concat_of_ne (by simp))
      | some .start => exact ih (matching.of_concat_of_ne (by simp))
      | some .finish =>
        have describes := Track.describes_run marks
        generalize Track.empty.run 1 marks = track at describes ih ⊢
        obtain ⟨opened, closed⟩ := track
        cases opened with
        | cons start others =>
            obtain ⟨earlier, isEarlier, bound⟩ := matching.exists_of_concat
            have most : earlier.length ≤ closed.length := ih isEarlier
            have onePair : (Track.step ⟨start :: others, closed⟩ (1 + marks.length)
                (some .finish)).closed.length = closed.length + 1 := List.length_append
            omega
        | nil =>
            -- Nothing is open, so every start is one of a closed pair.
            have paired : pairs.map (·.1) ⊆ closed.map (·.1) := by
              intro first isFirst
              obtain ⟨pair, member, rfl⟩ := List.mem_map.mp isFirst
              have before := matching.before pair member
              have bound := matching.last_le member
              have start := matching.start pair member
              rw [markAt_concat (by omega)] at start
              rcases exists_isPair_or_isOpen start with ⟨last, pair⟩ | ⟨depth, isOpen⟩
              · exact List.mem_map.mpr ⟨_, (describes.closed _ _).mpr pair, rfl⟩
              · cases (describes.opened _ _).mpr isOpen
            have most := (List.subperm_of_subset matching.startsOnce paired).length_le
            rwa [List.length_map, List.length_map] at most

end IsMatching

/-- A stack finds no pair twice. -/
theorem Track.closed_nodup (marks : List (Option Edge)) :
    (Track.empty.run 1 marks).closed.Nodup := by
  induction marks using List.reverseRecOn with
  | nil => exact List.nodup_nil
  | append_singleton marks mark ih =>
      rw [Track.run_concat]
      match mark with
      | none => exact ih
      | some .start => exact ih
      | some .finish =>
        have describes := Track.describes_run marks
        generalize Track.empty.run 1 marks = track at describes ih ⊢
        obtain ⟨opened, closed⟩ := track
        cases opened with
        | nil => exact ih
        | cons start others =>
            rw [Track.step]
            refine List.nodup_append.mpr ⟨ih, List.nodup_singleton _, ?_⟩
            rintro pair member _ isLast rfl
            rw [List.mem_singleton.mp isLast] at member
            have within := le_length_of_markAt ((describes.closed _ _).mp member).finish
            omega

/-! ## Matchings of greatest size -/

variable {pairs : List (ℕ × ℕ)}

/-- Where all marks that belong together are in pairs, finishes are left over only in front of the
starts that are. -/
theorem finishesFirst_of_all
    (all : ∀ first last, IsPair marks first last → (first, last) ∈ pairs) :
    FinishesFirst marks pairs := by
  intro first last start finish startLeft finishLeft
  rcases Nat.lt_trichotomy first last with before | rfl | behind
  · rcases exists_isPair_of_before start finish before with ⟨other, pair⟩ | ⟨other, pair⟩
    · exact absurd (List.mem_map.mpr ⟨_, all _ _ pair, rfl⟩) startLeft
    · exact absurd (List.mem_map.mpr ⟨_, all _ _ pair, rfl⟩) finishLeft
  · rw [start] at finish
    cases finish
  · exact behind

/-- A start and a later finish that are left over make a matching larger. -/
theorem IsMatching.cons (matching : IsMatching marks pairs) {first last : ℕ}
    (start : markAt marks first = some .start) (finish : markAt marks last = some .finish)
    (before : first < last) (startLeft : first ∉ pairs.map (·.1))
    (finishLeft : last ∉ pairs.map (·.2)) : IsMatching marks ((first, last) :: pairs) where
  start := List.forall_mem_cons.mpr ⟨start, matching.start⟩
  finish := List.forall_mem_cons.mpr ⟨finish, matching.finish⟩
  before := List.forall_mem_cons.mpr ⟨before, matching.before⟩
  startsOnce := List.nodup_cons.mpr ⟨startLeft, matching.startsOnce⟩
  finishesOnce := List.nodup_cons.mpr ⟨finishLeft, matching.finishesOnce⟩

/-- **Pairs that belong together are as many as can be exactly if the finishes that are left over
come before the starts that are.** -/
theorem isGreatest_iff_finishesFirst (distinct : pairs.Nodup)
    (paired : ∀ pair ∈ pairs, IsPair marks pair.1 pair.2) :
    IsGreatest (matchingSizes marks) pairs.length ↔ FinishesFirst marks pairs := by
  have matching := isMatching_of_isPair distinct paired
  constructor
  · rintro ⟨_, most⟩ first last start finish startLeft finishLeft
    by_contra notBehind
    have differ : first ≠ last := by
      rintro rfl
      rw [start] at finish
      cases finish
    have larger := matching.cons start finish (by omega) startLeft finishLeft
    have bound := most ⟨_, larger, rfl⟩
    rw [List.length_cons] at bound
    omega
  · intro finishesFirst
    have all : (Track.empty.run 1 marks).closed ⊆ pairs := by
      rintro ⟨first, last⟩ member
      have pair := ((Track.describes_run marks).closed first last).mp member
      by_contra left
      have behind := finishesFirst first last pair.start pair.finish (fun isStart => ?_)
        fun isFinish => ?_
      · exact absurd pair.before (Nat.lt_asymm behind)
      · obtain ⟨⟨_, other⟩, isIn, rfl⟩ := List.mem_map.mp isStart
        obtain rfl := pair.last_unique (paired _ isIn)
        exact left isIn
      · obtain ⟨⟨other, _⟩, isIn, rfl⟩ := List.mem_map.mp isFinish
        obtain rfl := pair.first_unique (paired _ isIn)
        exact left isIn
    refine ⟨⟨pairs, matching, rfl⟩, ?_⟩
    rintro size ⟨others, isMatching, rfl⟩
    calc others.length
        ≤ (Track.empty.run 1 marks).closed.length := isMatching.length_le_closed
      _ ≤ pairs.length := (List.subperm_of_subset (Track.closed_nodup marks) all).length_le

end Rows

/-! ## The regions of a text -/

/-- The lines of the regions with the tag. -/
def linesWith (tag : String) (regions : List Region) : List (ℕ × ℕ) :=
  (regions.filter (·.tag = tag)).map fun region =>
    (region.startLine.toNat, region.endLine.toNat)

section Text

variable {text : List Char} (fits : (Text.splitLines text).length < 2 ^ 32)

include fits

/-- No two regions start on the same line, and no two end on the same line. -/
theorem extract_apart : (extract text).Pairwise fun region other =>
    region.startLine ≠ other.startLine ∧ region.endLine ≠ other.endLine := by
  have above : ClosedAbove (1 + (Text.splitLines text).length) (scan text).closed :=
    ClosedAbove.run (Text.splitLines text) ⟨List.Pairwise.nil, nofun⟩ (by omega)
  have symmetric : ∀ {region other : Region},
      (region.startLine ≠ other.startLine ∧ region.endLine ≠ other.endLine) →
      (other.startLine ≠ region.startLine ∧ other.endLine ≠ region.endLine) :=
    fun differ => ⟨differ.1.symm, differ.2.symm⟩
  refine ((List.mergeSort_perm _ _).pairwise_iff symmetric).mpr ?_
  refine above.1.imp_of_mem fun {region other} isRegion isOther below => ⟨?_, ?_⟩
  · intro sameStart
    have same := closed_start_unique fits isRegion isOther (congrArg LineNumber.toNat sameStart)
    rw [same] at below
    exact absurd below (Nat.lt_irrefl _)
  · intro sameEnd
    rw [sameEnd] at below
    exact absurd below (Nat.lt_irrefl _)

theorem mem_linesWith_extract {tag : String} {first last : ℕ} :
    (first, last) ∈ linesWith tag (extract text) ↔ IsPair (marks tag text) first last := by
  have shown : ∀ {first last : ℕ}, IsPair (marks tag text) first last →
      (LineNumber.ofNat first).toNat = first ∧ (LineNumber.ofNat last).toNat = last := by
    intro first last pair
    have within := le_length_of_markAt pair.finish
    have before := pair.before
    rw [marks, List.length_map] at within
    exact ⟨LineNumber.toNat_ofNat (by omega), LineNumber.toNat_ofNat (by omega)⟩
  constructor
  · intro member
    obtain ⟨region, isKept, same⟩ := List.mem_map.mp member
    obtain ⟨isRegion, isTag⟩ := List.mem_filter.mp isKept
    obtain ⟨firstNumber, lastNumber, pair, startEq, endEq⟩ := mem_extract_iff.mp isRegion
    obtain rfl := of_decide_eq_true isTag
    rw [startEq, endEq, (shown pair).1, (shown pair).2] at same
    cases same
    exact pair
  · intro pair
    refine List.mem_map.mpr ⟨⟨tag, .ofNat first, .ofNat last⟩, List.mem_filter.mpr
      ⟨mem_extract_iff.mpr ⟨first, last, pair, rfl, rfl⟩, decide_eq_true rfl⟩, ?_⟩
    exact Prod.ext (shown pair).1 (shown pair).2

theorem linesWith_extract_nodup (tag : String) : (linesWith tag (extract text)).Nodup := by
  refine List.pairwise_map.mpr (((extract_apart fits).filter _).imp ?_)
  intro region other apart same
  exact apart.1 (LineNumber.toNat_injective (congrArg Prod.fst same))

end Text

/-- **No pair is lost.** No two regions of a text share a marker. The regions with a tag are a
matching of its markers that has as many pairs as any, and of the markers of the tag that are in no
region every finish comes before every start, which for markers that belong together says the
same. -/
theorem extract_maximum (text : List Char) (fits : (Text.splitLines text).length < 2 ^ 32) :
    (extract text).Pairwise (fun region other =>
      region.startLine ≠ other.startLine ∧ region.endLine ≠ other.endLine) ∧
    ∀ tag,
      IsMatching (marks tag text) (linesWith tag (extract text)) ∧
      IsGreatest (matchingSizes (marks tag text)) ((extract text).filter (·.tag = tag)).length ∧
      FinishesFirst (marks tag text) (linesWith tag (extract text)) ∧
      ∀ pairs : List (ℕ × ℕ), pairs.Nodup →
        (∀ pair ∈ pairs, IsPair (marks tag text) pair.1 pair.2) →
        (IsGreatest (matchingSizes (marks tag text)) pairs.length ↔
          FinishesFirst (marks tag text) pairs) := by
  refine ⟨extract_apart fits, fun tag => ?_⟩
  have distinct := linesWith_extract_nodup fits tag
  have paired : ∀ pair ∈ linesWith tag (extract text),
      IsPair (marks tag text) pair.1 pair.2 :=
    fun pair member => (mem_linesWith_extract fits).mp member
  have finishesFirst : FinishesFirst (marks tag text) (linesWith tag (extract text)) :=
    finishesFirst_of_all fun first last pair => (mem_linesWith_extract fits).mpr pair
  have greatest := (isGreatest_iff_finishesFirst distinct paired).mpr finishesFirst
  rw [linesWith, List.length_map] at greatest
  exact ⟨isMatching_of_isPair distinct paired, greatest, finishesFirst,
    fun _ => isGreatest_iff_finishesFirst⟩

/-- A finish without a start, a start without a finish between the markers of another region, and
one behind all of them. -/
def leftoverText : List Char :=
  "// [END a]\n// [START a]\n// [START b]\n# [START a]\n * [END a]\n// [END b]\n/* [START a] */\n".toList

theorem extract_maximum_leftover :
    (Text.splitLines leftoverText).length < 2 ^ 32 ∧
      linesWith "a" (extract leftoverText) = [(4, 5)] ∧
      IsGreatest (matchingSizes (marks "a" leftoverText)) 1 ∧
      FinishesFirst (marks "a" leftoverText) [(4, 5)] := by
  have closed : linesWith "a" (scan leftoverText).closed = [(4, 5)] := by decide
  have lines : linesWith "a" (extract leftoverText) = [(4, 5)] := by
    rw [← List.perm_singleton, ← closed]
    exact ((List.mergeSort_perm _ _).filter _).map _
  obtain ⟨_, ofTag⟩ := extract_maximum leftoverText (by decide)
  obtain ⟨_, greatest, finishesFirst, _⟩ := ofTag "a"
  have size := congrArg List.length lines
  rw [linesWith, List.length_map] at size
  rw [size] at greatest
  rw [lines] at finishesFirst
  exact ⟨by decide, lines, greatest, finishesFirst⟩

end SampleMethods.Region
