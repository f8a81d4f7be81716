import Mathlib.Data.List.ReduceOption
import SampleMethods.Proofs.Region.Balance

/-!
# Pairing the edges of one tag

Read for one tag alone, a text is a row of marks, one for each line: an edge of a
region with the tag, or nothing. Such a row is paired with a stack. The numbers of
open starts lie on it, the latest on top, and a finish takes the top one away and
gives a pair. Numbers count from one, as lines do.

The stack is described without running it. A start is `depth` places below the
top when the marks behind it never have more finishes than starts and have
`depth` more starts (`IsOpen`), and two numbers are paired when the marks between
them are balanced (`IsPair`). One more mark keeps this description
(`Describes.step`), so it holds after any row of marks (`describes_run`).
-/

set_option autoImplicit false

namespace SampleMethods.Region

open Marker (Edge)

/-! ## Marks -/

/-- The mark with a number, counted from one. -/
def markAt (marks : List (Option Edge)) : ℕ → Option Edge
  | 0 => none
  | number + 1 => marks[number]?.join

/-- The edges behind a number. -/
def edgesBehind (marks : List (Option Edge)) (number : ℕ) : List Edge :=
  (marks.drop number).reduceOption

/-- The edges strictly between two numbers. -/
def edgesBetween (marks : List (Option Edge)) (first last : ℕ) : List Edge :=
  edgesBehind (marks.take (last - 1)) first

/-- A start and a later finish, with nothing left open or taken from outside between them. -/
structure IsPair (marks : List (Option Edge)) (first last : ℕ) : Prop where
  start : markAt marks first = some .start
  finish : markAt marks last = some .finish
  before : first < last
  balanced : IsBalanced (edgesBetween marks first last)

/-- A start that is open at the end of the marks, below as many later ones. -/
structure IsOpen (marks : List (Option Edge)) (number depth : ℕ) : Prop where
  start : markAt marks number = some .start
  above : NeverBelow (edgesBehind marks number)
  depth_eq : (edgesBehind marks number).count .start =
    (edgesBehind marks number).count .finish + depth

section Concat

variable {marks : List (Option Edge)} {mark : Option Edge} {number first last depth : ℕ}

theorem le_length_of_markAt {edge : Edge} (found : markAt marks number = some edge) :
    number ≤ marks.length := by
  cases number with
  | zero => exact Nat.zero_le _
  | succ number =>
      rw [markAt, Option.join_eq_some_iff] at found
      exact (List.getElem?_eq_some_iff.mp found).1

theorem markAt_nil (number : ℕ) : markAt [] number = none := by
  cases number <;> rfl

theorem markAt_concat (within : number ≤ marks.length) :
    markAt (marks ++ [mark]) number = markAt marks number := by
  cases number with
  | zero => rfl
  | succ number => rw [markAt, markAt, List.getElem?_append_left within]

theorem markAt_concat_length : markAt (marks ++ [mark]) (marks.length + 1) = mark := by
  rw [markAt, List.getElem?_concat_length]
  rfl

/-- What is marked is the last mark, or was marked before it. -/
theorem markAt_concat_eq_some {edge : Edge} :
    markAt (marks ++ [mark]) number = some edge ↔
      (number = marks.length + 1 ∧ mark = some edge) ∨ markAt marks number = some edge := by
  constructor
  · intro found
    have bound := le_length_of_markAt found
    rw [List.length_append, List.length_singleton] at bound
    rcases Nat.lt_or_ge marks.length number with beyond | within
    · obtain rfl : number = marks.length + 1 := by omega
      rw [markAt_concat_length] at found
      exact .inl ⟨rfl, found⟩
    · rw [markAt_concat within] at found
      exact .inr found
  · rintro (⟨rfl, rfl⟩ | found)
    · exact markAt_concat_length
    · rw [markAt_concat (le_length_of_markAt found)]
      exact found

theorem edgesBehind_concat (within : number ≤ marks.length) :
    edgesBehind (marks ++ [mark]) number = edgesBehind marks number ++ mark.toList := by
  rw [edgesBehind, List.drop_append_of_le_length within, List.reduceOption_append, edgesBehind]
  cases mark <;> rfl

theorem edgesBehind_concat_length :
    edgesBehind (marks ++ [mark]) (marks.length + 1) = [] := by
  rw [edgesBehind, List.drop_of_length_le (by simp)]
  rfl

theorem edgesBetween_concat (within : last ≤ marks.length + 1) :
    edgesBetween (marks ++ [mark]) first last = edgesBetween marks first last := by
  rw [edgesBetween, List.take_append_of_le_length (by omega), edgesBetween]

theorem edgesBetween_length_succ :
    edgesBetween marks first (marks.length + 1) = edgesBehind marks first := by
  rw [edgesBetween, Nat.add_sub_cancel, List.take_length]

/-- What is open after one more mark: the mark itself, or an earlier start whose edges the mark
adds to. -/
theorem isOpen_concat :
    IsOpen (marks ++ [mark]) number depth ↔
      (number = marks.length + 1 ∧ mark = some .start ∧ depth = 0) ∨
      (markAt marks number = some .start ∧
        NeverBelow (edgesBehind marks number ++ mark.toList) ∧
        (edgesBehind marks number ++ mark.toList).count .start =
          (edgesBehind marks number ++ mark.toList).count .finish + depth) := by
  constructor
  · rintro ⟨start, above, depthEq⟩
    rcases markAt_concat_eq_some.mp start with ⟨rfl, isStart⟩ | earlier
    · rw [edgesBehind_concat_length, List.count_nil, List.count_nil, Nat.zero_add] at depthEq
      exact .inl ⟨rfl, isStart, depthEq.symm⟩
    · rw [edgesBehind_concat (le_length_of_markAt earlier)] at above depthEq
      exact .inr ⟨earlier, above, depthEq⟩
  · rintro (⟨rfl, rfl, rfl⟩ | ⟨start, above, depthEq⟩)
    · refine ⟨markAt_concat_length, ?_, ?_⟩
      · rw [edgesBehind_concat_length]
        exact neverBelow_nil
      · rw [edgesBehind_concat_length]
        rfl
    · have within := le_length_of_markAt start
      rw [← edgesBehind_concat within] at above depthEq
      exact ⟨(markAt_concat within).trans start, above, depthEq⟩

/-- A number without a mark changes nothing. -/
theorem isOpen_concat_none :
    IsOpen (marks ++ [none]) number depth ↔ IsOpen marks number depth := by
  rw [isOpen_concat, Option.toList_none, List.append_nil]
  constructor
  · rintro (⟨_, noStart, _⟩ | ⟨start, above, depthEq⟩)
    · cases noStart
    · exact ⟨start, above, depthEq⟩
  · rintro ⟨start, above, depthEq⟩
    exact .inr ⟨start, above, depthEq⟩

/-- A further start goes on top of those that are open. -/
theorem isOpen_concat_start :
    IsOpen (marks ++ [some .start]) number depth ↔
      (number = marks.length + 1 ∧ depth = 0) ∨
        ∃ lower, depth = lower + 1 ∧ IsOpen marks number lower := by
  rw [isOpen_concat, Option.toList_some, neverBelow_concat_start, List.count_append,
    List.count_append]
  constructor
  · rintro (⟨atEnd, _, atTop⟩ | ⟨start, above, depthEq⟩)
    · exact .inl ⟨atEnd, atTop⟩
    · have bound := above.count_le
      simp at depthEq
      exact .inr ⟨depth - 1, by omega, start, above, by omega⟩
  · rintro (⟨atEnd, atTop⟩ | ⟨lower, rfl, start, above, depthEq⟩)
    · exact .inl ⟨atEnd, rfl, atTop⟩
    · refine .inr ⟨start, above, ?_⟩
      simp
      omega

/-- A further finish takes the top one away. -/
theorem isOpen_concat_finish :
    IsOpen (marks ++ [some .finish]) number depth ↔ IsOpen marks number (depth + 1) := by
  rw [isOpen_concat, Option.toList_some, neverBelow_concat_finish, List.count_append,
    List.count_append]
  constructor
  · rintro (⟨_, noStart, _⟩ | ⟨start, ⟨above, _⟩, depthEq⟩)
    · cases noStart
    · simp at depthEq
      exact ⟨start, above, by omega⟩
  · rintro ⟨start, above, depthEq⟩
    refine .inr ⟨start, ⟨above, by omega⟩, ?_⟩
    simp
    omega

/-- The pairs after one more mark: those before it, and that of a finish with the top one of the
open starts. -/
theorem isPair_concat :
    IsPair (marks ++ [mark]) first last ↔
      IsPair marks first last ∨
        mark = some .finish ∧ last = marks.length + 1 ∧ IsOpen marks first 0 := by
  constructor
  · rintro ⟨start, finish, before, balanced⟩
    rcases markAt_concat_eq_some.mp finish with ⟨rfl, isFinish⟩ | earlier
    · rw [markAt_concat (by omega)] at start
      rw [edgesBetween_concat (Nat.le_refl _), edgesBetween_length_succ] at balanced
      exact .inr ⟨isFinish, rfl, start, balanced.1, balanced.2⟩
    · have within := le_length_of_markAt earlier
      rw [markAt_concat (by omega)] at start
      rw [edgesBetween_concat (by omega)] at balanced
      exact .inl ⟨start, earlier, before, balanced⟩
  · rintro (⟨start, finish, before, balanced⟩ | ⟨rfl, rfl, start, above, depthEq⟩)
    · have within := le_length_of_markAt finish
      refine ⟨(markAt_concat (by omega)).trans start, (markAt_concat within).trans finish, before,
        ?_⟩
      rw [edgesBetween_concat (by omega)]
      exact balanced
    · have within := le_length_of_markAt start
      refine ⟨(markAt_concat within).trans start, markAt_concat_length, by omega, ?_⟩
      rw [edgesBetween_concat (Nat.le_refl _), edgesBetween_length_succ]
      exact ⟨above, depthEq⟩

end Concat

theorem IsOpen.depth_unique {marks : List (Option Edge)} {number first second : ℕ}
    (one : IsOpen marks number first) (other : IsOpen marks number second) : first = second := by
  have firstEq := one.depth_eq
  have secondEq := other.depth_eq
  omega

/-- A start that has its finish is not open. -/
theorem IsPair.not_isOpen {marks : List (Option Edge)} {first last depth : ℕ}
    (pair : IsPair marks first last) : ¬IsOpen marks first depth := by
  induction marks using List.reverseRecOn generalizing depth with
  | nil => exact absurd pair.finish (by simp [markAt_nil])
  | append_singleton marks mark ih =>
      intro isOpen
      rcases isPair_concat.mp pair with earlier | ⟨rfl, rfl, wasOpen⟩
      · have within := le_length_of_markAt earlier.start
        match mark with
        | none => exact ih earlier (isOpen_concat_none.mp isOpen)
        | some .start =>
          rcases isOpen_concat_start.mp isOpen with ⟨atEnd, _⟩ | ⟨_, _, wasOpen⟩
          · omega
          · exact ih earlier wasOpen
        | some .finish => exact ih earlier (isOpen_concat_finish.mp isOpen)
      · have same := wasOpen.depth_unique (isOpen_concat_finish.mp isOpen)
        omega

/-- A start has at most one finish. -/
theorem IsPair.last_unique {marks : List (Option Edge)} {first last other : ℕ}
    (pair : IsPair marks first last) (again : IsPair marks first other) : last = other := by
  induction marks using List.reverseRecOn with
  | nil => exact absurd pair.finish (by simp [markAt_nil])
  | append_singleton marks mark ih =>
      rcases isPair_concat.mp pair with earlier | ⟨_, rfl, wasOpen⟩
      · rcases isPair_concat.mp again with earlierAgain | ⟨_, rfl, wasOpen⟩
        · exact ih earlier earlierAgain
        · exact absurd wasOpen earlier.not_isOpen
      · rcases isPair_concat.mp again with earlierAgain | ⟨_, rfl, _⟩
        · exact absurd wasOpen earlierAgain.not_isOpen
        · rfl

/-! ## The stack -/

/-- What is known of one tag after some marks: the numbers of its open starts, the latest first,
and its pairs. -/
structure Track where
  opened : List ℕ
  closed : List (ℕ × ℕ)

namespace Track

/-- Nothing has been read. -/
def empty : Track :=
  ⟨[], []⟩

/-- What is known after one more mark, which has the number. -/
def step (track : Track) (number : ℕ) : Option Edge → Track
  | none => track
  | some .start => { track with opened := number :: track.opened }
  | some .finish =>
    match track.opened with
    | [] => track
    | start :: others => ⟨others, track.closed ++ [(start, number)]⟩

/-- What is known after further marks, the first of which has the number. -/
def run (track : Track) (number : ℕ) : List (Option Edge) → Track
  | [] => track
  | mark :: marks => (track.step number mark).run (number + 1) marks

/-- The last mark of a row is read last. -/
theorem run_concat (marks : List (Option Edge)) (mark : Option Edge) :
    ∀ (track : Track) (number : ℕ), track.run number (marks ++ [mark]) =
      (track.run number marks).step (number + marks.length) mark := by
  induction marks with
  | nil => exact fun _ _ => rfl
  | cons first marks ih =>
      intro track number
      rw [List.cons_append, run, run, ih, List.length_cons]
      congr 1
      omega

/-- What is known when its numbers are shown in another way. -/
def map (shown : ℕ → ℕ) (track : Track) : Track where
  opened := track.opened.map shown
  closed := track.closed.map (Prod.map shown shown)

/-- The numbers play no part in a step. -/
theorem map_step (shown : ℕ → ℕ) (track : Track) (number : ℕ) (mark : Option Edge) :
    (track.step number mark).map shown = (track.map shown).step (shown number) mark := by
  match mark with
  | none => rfl
  | some .start => rfl
  | some .finish =>
    obtain ⟨opened, closed⟩ := track
    cases opened <;> simp [step, map]

/-- What is known is what the marks say. -/
structure Describes (marks : List (Option Edge)) (track : Track) : Prop where
  opened : ∀ depth number : ℕ, track.opened[depth]? = some number ↔ IsOpen marks number depth
  closed : ∀ first last : ℕ, (first, last) ∈ track.closed ↔ IsPair marks first last

theorem describes_empty : Describes [] empty where
  opened depth number := by
    constructor
    · intro found
      cases found
    · intro isOpen
      exact absurd isOpen.start (by simp [markAt_nil])
  closed first last := by
    constructor
    · intro member
      cases member
    · intro pair
      exact absurd pair.start (by simp [markAt_nil])

/-- **One more mark keeps the description.** -/
theorem Describes.step {marks : List (Option Edge)} {track : Track}
    (describes : Describes marks track) (mark : Option Edge) :
    Describes (marks ++ [mark]) (track.step (marks.length + 1) mark) := by
  obtain ⟨opened, closed⟩ := describes
  match mark with
  | none =>
    refine ⟨fun depth number => ?_, fun first last => ?_⟩
    · rw [isOpen_concat_none]
      exact opened depth number
    · rw [isPair_concat, Track.step, closed]
      simp
  | some .start =>
    refine ⟨fun depth number => ?_, fun first last => ?_⟩
    · rw [isOpen_concat_start]
      cases depth with
      | zero => simp [Track.step, eq_comm]
      | succ depth => simp [Track.step, opened]
    · rw [isPair_concat, Track.step, closed]
      simp
  | some .finish =>
    refine ⟨fun depth number => ?_, fun first last => ?_⟩
    · rw [isOpen_concat_finish, ← opened]
      cases track with
      | mk starts pairs => cases starts <;> simp [Track.step]
    · rw [isPair_concat, ← opened, ← closed]
      cases track with
      | mk starts pairs =>
        cases starts with
        | nil => simp [Track.step]
        | cons start others => simp [Track.step, eq_comm, and_comm]

/-- **After any further marks the description still holds.** -/
theorem Describes.run {track : Track} :
    ∀ {marks : List (Option Edge)}, Describes marks track → ∀ further : List (Option Edge),
      Describes (marks ++ further) (track.run (marks.length + 1) further)
  | marks, describes, [] => by
      rw [List.append_nil]
      exact describes
  | marks, describes, mark :: further => by
      have later := (describes.step mark).run further
      rw [List.append_assoc, List.length_append, List.length_singleton] at later
      exact later

/-- What is known after a whole row of marks is what they say. -/
theorem describes_run (marks : List (Option Edge)) : Describes marks (empty.run 1 marks) :=
  describes_empty.run marks

end Track

end SampleMethods.Region
