import SampleMethods.Text.Line

/-!
# The lines of positions

A position further on is never on a line further up (`lineAt_le_lineAt`), and
behind a line feed it is on a line further down (`lineAt_lt_lineAt`). Lines are cut
at line feeds but counted at carriage returns too. The two agree where no carriage
return stands alone: there the line of a position is told by the line feeds in front
of it (`lineAt_eq_count`), as that of a cut line always is
(`exists_of_splitLines_getElem?`). Elsewhere it can only be further down
(`count_lt_lineAt`).
-/

set_option autoImplicit false

namespace SampleMethods.Text

/-! ## Counting line ends -/

theorem lineEndsBefore_zero (text : List Char) : lineEndsBefore text 0 = 0 := by
  cases text <;> rfl

theorem lineEndsBefore_le {text : List Char} {first second : Nat} (below : first ≤ second) :
    lineEndsBefore text first ≤ lineEndsBefore text second := by
  induction text generalizing first second with
  | nil => exact Nat.le_refl _
  | cons character rest ih =>
      cases first with
      | zero =>
          rw [lineEndsBefore_zero]
          exact Nat.zero_le _
      | succ first =>
          cases second with
          | zero => exact absurd below (Nat.not_succ_le_zero first)
          | succ second =>
              simp only [lineEndsBefore]
              exact Nat.add_le_add_left (ih (Nat.le_of_succ_le_succ below)) _

/-- A line feed always ends a line. -/
theorem lineEndsBefore_feed {text : List Char} {feed : Nat} (isFeed : text[feed]? = some '\n') :
    lineEndsBefore text (feed + 1) = lineEndsBefore text feed + 1 := by
  induction text generalizing feed with
  | nil => cases isFeed
  | cons character rest ih =>
      cases feed with
      | zero =>
          rw [List.getElem?_cons_zero, Option.some.injEq] at isFeed
          subst isFeed
          simp [lineEndsBefore, lineEndsBefore_zero, endsLine]
      | succ feed =>
          rw [List.getElem?_cons_succ] at isFeed
          rw [lineEndsBefore, ih isFeed, lineEndsBefore, Nat.add_assoc]

theorem lineAt_le_lineAt {text : List Char} {first second : Nat} (below : first ≤ second) :
    lineAt text first ≤ lineAt text second :=
  Nat.succ_le_succ (lineEndsBefore_le below)

/-- No position is below the end of the text. -/
theorem lineEndsBefore_le_length (text : List Char) (position : Nat) :
    lineEndsBefore text position ≤ lineEndsBefore text text.length := by
  induction text generalizing position with
  | nil => exact Nat.le_refl _
  | cons character rest ih =>
      cases position with
      | zero =>
          rw [lineEndsBefore_zero]
          exact Nat.zero_le _
      | succ position => exact Nat.add_le_add_left (ih position) _

theorem lineAt_le_lineAt_length (text : List Char) (position : Nat) :
    lineAt text position ≤ lineAt text text.length :=
  Nat.succ_le_succ (lineEndsBefore_le_length text position)

/-- **What a line feed separates is on different lines.** -/
theorem lineAt_lt_lineAt {text : List Char} {first feed second : Nat} (above : first ≤ feed)
    (isFeed : text[feed]? = some '\n') (below : feed < second) :
    lineAt text first < lineAt text second := by
  calc lineAt text first
      ≤ lineAt text feed := lineAt_le_lineAt above
    _ < lineAt text (feed + 1) := by
        rw [lineAt, lineAt, lineEndsBefore_feed isFeed]
        exact Nat.lt_succ_self _
    _ ≤ lineAt text second := lineAt_le_lineAt below

/-! ## Texts without lone carriage returns -/

/-- Every carriage return in the text has a line feed right behind it. -/
def NoLoneReturn (text : List Char) : Prop :=
  ∀ index, text[index]? = some '\r' → text[index + 1]? = some '\n'

instance (text : List Char) : Decidable (NoLoneReturn text) :=
  decidable_of_iff (∀ index < text.length, text[index]? = some '\r' → text[index + 1]? = some '\n')
    ⟨fun within index isReturn => within index (List.getElem?_eq_some_iff.mp isReturn).1 isReturn,
      fun noLone index _ => noLone index⟩

theorem NoLoneReturn.tail {character : Char} {rest : List Char}
    (noLone : NoLoneReturn (character :: rest)) : NoLoneReturn rest :=
  fun index => noLone (index + 1)

/-- Only a line feed ends a line. -/
theorem NoLoneReturn.endsLine_eq {character : Char} {rest : List Char}
    (noLone : NoLoneReturn (character :: rest)) :
    endsLine character rest.head? = (character == '\n') := by
  by_cases isReturn : character = '\r'
  · subst isReturn
    have fed : rest.head? = some '\n' := by
      rw [List.head?_eq_getElem?]
      exact noLone 0 rfl
    rw [fed]
    rfl
  · simp [endsLine, isReturn]

/-- **Where no carriage return stands alone, the line of a position is told by the line feeds in
front of it.** -/
theorem lineAt_eq_count {text : List Char} (noLone : NoLoneReturn text) (position : Nat) :
    lineAt text position = (text.take position).count '\n' + 1 := by
  rw [lineAt, Nat.add_right_cancel_iff]
  induction text generalizing position with
  | nil => simp [lineEndsBefore]
  | cons character rest ih =>
      cases position with
      | zero => rfl
      | succ position =>
          rw [lineEndsBefore, noLone.endsLine_eq, ih noLone.tail, List.take_succ_cons,
            List.count_cons, Nat.add_comm]

/-- A lone carriage return puts a position further down than the line feeds in front of it do, and
nothing puts it further up. -/
theorem count_lt_lineAt (text : List Char) (position : Nat) :
    (text.take position).count '\n' < lineAt text position := by
  rw [lineAt, Nat.lt_succ_iff]
  induction text generalizing position with
  | nil => simp
  | cons character rest ih =>
      cases position with
      | zero => exact Nat.zero_le _
      | succ position =>
          rw [lineEndsBefore, List.take_succ_cons, List.count_cons, Nat.add_comm]
          refine Nat.add_le_add ?_ (ih position)
          cases isFeed : character == '\n' with
          | false => exact Nat.zero_le _
          | true => simp [endsLine, isFeed]

/-! ## Lines that are cut -/

/-- The line has as many line feeds in front of it as lines, the last of them right before it, and
none within it. -/
structure IsCutLine (front line : List Char) (index : Nat) : Prop where
  feeds : front.count '\n' = index
  begins : front = [] ∨ ∃ earlier, front = earlier ++ ['\n']
  noFeed : '\n' ∉ line

namespace IsCutLine

variable {front line : List Char} {index : Nat}

theorem eq_nil (cut : IsCutLine front line 0) : front = [] := by
  rcases cut.begins with none | ⟨earlier, rfl⟩
  · exact none
  · have feeds := cut.feeds
    rw [List.count_append, List.count_singleton_self] at feeds
    omega

/-- Behind a further line every line is one further down. -/
theorem behindFeed (first : List Char) (noFeed : '\n' ∉ first) (cut : IsCutLine front line index) :
    IsCutLine (first ++ '\n' :: front) line (index + 1) where
  feeds := by
    rw [List.count_append, List.count_eq_zero_of_not_mem noFeed, List.count_cons_self, cut.feeds,
      Nat.zero_add]
  begins := by
    rcases cut.begins with rfl | ⟨earlier, rfl⟩
    · exact .inr ⟨first, rfl⟩
    · exact .inr ⟨first ++ '\n' :: earlier, by simp⟩
  noFeed := cut.noFeed

/-- A character that is put in front of a text belongs to its first line. -/
theorem behindCharacter {character : Char} (notFeed : character ≠ '\n')
    (cut : IsCutLine front line (index + 1)) :
    IsCutLine (character :: front) line (index + 1) where
  feeds := by
    rw [List.count_cons_of_ne notFeed, cut.feeds]
  begins := by
    rcases cut.begins with rfl | ⟨earlier, rfl⟩
    · exact absurd cut.feeds (Nat.succ_ne_zero index).symm
    · exact .inr ⟨character :: earlier, rfl⟩
  noFeed := cut.noFeed

theorem first {line : List Char} (noFeed : '\n' ∉ line) : IsCutLine [] line 0 :=
  ⟨rfl, .inl rfl, noFeed⟩

end IsCutLine

/-- **A line that is cut out of a text is told by the line feeds in front of it.** -/
theorem exists_of_splitLines_getElem? {text line : List Char} {index : Nat}
    (isLine : (splitLines text)[index]? = some line) :
    ∃ front behind, text = front ++ line ++ behind ∧ IsCutLine front line index := by
  induction text using splitLines.induct generalizing index line with
  | case1 => cases isLine
  | case2 rest ih =>
      rw [splitLines] at isLine
      cases index with
      | zero =>
          cases isLine
          exact ⟨[], '\n' :: rest, rfl, .first List.not_mem_nil⟩
      | succ index =>
          obtain ⟨front, behind, rfl, cut⟩ := ih isLine
          exact ⟨'\n' :: front, behind, rfl, cut.behindFeed [] List.not_mem_nil⟩
  | case3 rest ih =>
      rw [splitLines] at isLine
      cases index with
      | zero =>
          cases isLine
          exact ⟨[], '\r' :: '\n' :: rest, rfl, .first List.not_mem_nil⟩
      | succ index =>
          obtain ⟨front, behind, rfl, cut⟩ := ih isLine
          exact ⟨'\r' :: '\n' :: front, behind, rfl, cut.behindFeed ['\r'] (by decide)⟩
  | case4 character notFeed =>
      rw [splitLines.eq_4 character notFeed] at isLine
      cases index with
      | zero =>
          cases isLine
          exact ⟨[], [], rfl, .first (by simpa using Ne.symm notFeed)⟩
      | succ index => cases isLine
  | case5 character rest notFeed notReturn nonempty nothing ih =>
      rw [splitLines.eq_5 character rest notFeed notReturn nonempty, nothing] at isLine
      cases index with
      | zero =>
          cases isLine
          exact ⟨[], rest, rfl, .first (by simpa using Ne.symm notFeed)⟩
      | succ index => cases isLine
  | case6 character rest notFeed notReturn nonempty first others cut ih =>
      rw [splitLines.eq_5 character rest notFeed notReturn nonempty, cut] at isLine
      rw [cut] at ih
      cases index with
      | zero =>
          cases isLine
          have atFirst : (first :: others)[0]? = some first := rfl
          obtain ⟨front, behind, rfl, isFirst⟩ := ih atFirst
          obtain rfl := isFirst.eq_nil
          refine ⟨[], behind, rfl, .first fun feed => ?_⟩
          rcases List.mem_cons.mp feed with same | inFirst
          · exact notFeed same.symm
          · exact isFirst.noFeed inFirst
      | succ index =>
          have inOthers : (first :: others)[index + 1]? = some line := isLine
          obtain ⟨front, behind, rfl, isOther⟩ := ih inOthers
          exact ⟨character :: front, behind, rfl, isOther.behindCharacter notFeed⟩

end SampleMethods.Text
