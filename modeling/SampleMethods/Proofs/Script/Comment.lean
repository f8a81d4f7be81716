import Mathlib.Data.List.Infix
import Mathlib.Data.List.TakeWhile
import SampleMethods.Script.Parse

/-!
# Comments between tokens

What a cursor passes over in front of the first token, and between any two of them, is
a row of blanks and comments (`PassesOver.isGap`). Every comment is told by the text
alone: by the mark that opens it, and by where it ends. So a comment reaches a place in
the text exactly if nothing ends it on the way there (`IsComment.covers_iff`).
-/

set_option autoImplicit false

namespace SampleMethods.Script

/-! ## Comments -/

/-- The body goes up to the end of a line. -/
structure RunsToLineEnd (body behind : List Char) : Prop where
  inLine : ∀ character ∈ body, isLineTerminator character = false
  stops : ∀ character ∈ behind.head?, isLineTerminator character = true

/-- The mark that closes a block comment. -/
def blockEnd : List Char :=
  ['*', '/']

/-- Between two tokens, what is written is a comment, with the one text in front of it and the
other one behind. -/
inductive IsComment (front : List Char) : List Char → List Char → Prop
  | line {body behind : List Char} :
      RunsToLineEnd body behind → IsComment front ('/' :: '/' :: body) behind
  | block {body behind : List Char} :
      ¬ blockEnd <:+: body → IsComment front ('/' :: '*' :: (body ++ blockEnd)) behind
  /-- Nothing closes the comment, so it goes up to the end of the text. -/
  | unclosed {body : List Char} :
      ¬ blockEnd <:+: body → IsComment front ('/' :: '*' :: body) []
  /-- The first line names an interpreter. Only a byte order mark may stand in front. -/
  | interpreter {body behind : List Char} :
      front = [] ∨ front = ['\uFEFF'] → RunsToLineEnd body behind →
      IsComment front ('#' :: '!' :: body) behind

/-- A line comment that one of the older marks opens. -/
structure IsLegacyComment (written behind : List Char) : Prop where
  opens : ∃ newline, startsLegacyComment newline (written ++ behind) = true
  runs : RunsToLineEnd written behind

/-- The mark that opens a block comment. -/
def blockStart : List Char :=
  ['/', '*']

/-- A comment either goes up to the end of a line, or up to the first mark that closes a block
comment. -/
theorem IsComment.forms {front written behind : List Char}
    (isComment : IsComment front written behind) :
    RunsToLineEnd written behind ∧ ¬ blockStart <+: written ++ behind ∨
      ∃ body, ¬ blockEnd <:+: body ∧ (written = blockStart ++ body ++ blockEnd ∨
        written = blockStart ++ body ∧ behind = []) := by
  cases isComment with
  | line runs | interpreter _ runs =>
      refine .inl ⟨⟨?_, runs.stops⟩, by simp [blockStart]⟩
      rintro character (_ | ⟨_, _ | ⟨_, inBody⟩⟩)
      · decide
      · decide
      · exact runs.inLine character inBody
  | block absent => exact .inr ⟨_, absent, .inl rfl⟩
  | unclosed absent => exact .inr ⟨_, absent, .inr ⟨rfl, rfl⟩⟩

/-- The characters that the older marks begin with. -/
def legacyMarks : List Char :=
  ['<', '-', '>', '=', '|']

theorem IsLegacyComment.exists_first {written behind : List Char}
    (isLegacy : IsLegacyComment written behind) :
    ∃ character ∈ legacyMarks, (written ++ behind).head? = some character := by
  obtain ⟨newline, opens⟩ := isLegacy.opens
  simp only [startsLegacyComment, Bool.or_eq_true, Bool.and_eq_true,
    List.isPrefixOf_iff_prefix] at opens
  rcases opens with ⟨_, same⟩ | ⟨-, (((⟨_, same⟩ | ⟨_, same⟩) | ⟨_, same⟩) | ⟨_, same⟩) | ⟨_, same⟩⟩
  all_goals
    rw [← same]
    exact ⟨_, by decide, rfl⟩

/-! ## Rows of blanks and comments -/

/-- A character that may stand between two tokens. -/
def isGapBlank (character : Char) : Bool :=
  isLineTerminator character || (Text.isBlank character || character.toNat == 0xFEFF)

/-- What is written may stand between two tokens, with the one text in front of it and the other
one behind. -/
inductive IsGapPart (front : List Char) : List Char → List Char → Prop
  | blank {character : Char} {behind : List Char} :
      isGapBlank character = true → IsGapPart front [character] behind
  | comment {written behind : List Char} :
      IsComment front written behind → IsGapPart front written behind
  | legacy {written behind : List Char} :
      IsLegacyComment written behind → IsGapPart front written behind

/-- From the first position of the text up to the last one there are blanks and comments alone. -/
inductive IsGap (text : List Char) : ℕ → ℕ → Prop
  | done (position : ℕ) : IsGap text position position
  | part {start stop : ℕ} {written behind : List Char} :
      text.drop start = written ++ behind → IsGapPart (text.take start) written behind →
      IsGap text (start + written.length) stop → IsGap text start stop

namespace IsGap

variable {text : List Char} {start stop : ℕ}

theorem trans {middle : ℕ} (first : IsGap text start middle) (second : IsGap text middle stop) :
    IsGap text start stop := by
  induction first with
  | done => exact second
  | part cut isPart _ ih => exact .part cut isPart (ih second)

/-- Every character of a gap belongs to one of its parts. -/
theorem exists_part (isGap : IsGap text start stop) {position : ℕ} (behindStart : start ≤ position)
    (beforeStop : position < stop) : ∃ first written behind, IsGap text start first ∧
      text.drop first = written ++ behind ∧ IsGapPart (text.take first) written behind ∧
      first ≤ position ∧ position < first + written.length ∧
      IsGap text (first + written.length) stop := by
  induction isGap with
  | done => omega
  | @part start stop written behind cut isPart others ih =>
      by_cases inPart : position < start + written.length
      · exact ⟨start, written, behind, .done start, cut, isPart, behindStart, inPart, others⟩
      · obtain ⟨first, written', behind', inFront, rest⟩ := ih (by omega) beforeStop
        exact ⟨first, written', behind', .part cut isPart inFront, rest⟩

end IsGap

/-- Among the blanks and comments from the first position up to the last one there is a comment at
the span. -/
structure IsCommentBetween (text : List Char) (start stop : ℕ) (comment : Span) : Prop where
  inFront : IsGap text start comment.start
  isComment : ∃ written behind, text.drop comment.start = written ++ behind ∧
    IsComment (text.take comment.start) written behind ∧
    comment.stop = comment.start + written.length
  behind : IsGap text comment.stop stop

/-! ## How far a comment goes -/

/-- Nothing from the first position up to the last one ends the comment that begins at the start:
no closing mark if it is a block comment, and no line end otherwise. -/
structure GoesOn (text : List Char) (start first last : ℕ) : Prop where
  unclosed : blockStart <+: text.drop start → ∀ index, first ≤ index → start + 2 ≤ index →
    index + 2 ≤ last → ¬ blockEnd <+: text.drop index
  inLine : ¬ blockStart <+: text.drop start → ∀ index, first ≤ index → index < last →
    ∀ character ∈ text[index]?, isLineTerminator character = false

/-- Where neither a line end nor a closing mark stands, every comment goes on. -/
theorem GoesOn.of_unbroken {text : List Char} {first last : ℕ} (start : ℕ)
    (noEnd : ∀ index < last, first ≤ index → text[index]?.any isLineTerminator = false)
    (noMark : ∀ index < last, first ≤ index → index + 2 ≤ last → ¬ blockEnd <+: text.drop index) :
    GoesOn text start first last where
  unclosed _ index behind _ inside := noMark index (by omega) behind inside
  inLine _ index behind inside character isThere := by
    have noEnd := noEnd index inside behind
    rw [Option.mem_def.mp isThere] at noEnd
    exact noEnd

/-- The first closing mark does not begin before the end of the body. -/
theorem not_blockEnd_prefix_drop {body behind : List Char} (absent : ¬ blockEnd <:+: body)
    {index : ℕ} (inBody : index < body.length) :
    ¬ blockEnd <+: (body ++ (blockEnd ++ behind)).drop index := by
  rintro ⟨others, same⟩
  rw [List.drop_append_of_le_length (Nat.le_of_lt inBody)] at same
  have split := List.take_append_drop index body
  cases isRest : body.drop index with
  | nil =>
      rw [List.drop_eq_nil_iff] at isRest
      omega
  | cons first rest =>
      rw [isRest] at same split
      cases rest with
      | nil => cases same
      | cons second rest =>
          cases same
          exact absent ⟨body.take index, rest, (List.append_assoc ..).trans split⟩

section Extent

variable {text body written behind : List Char} {start first last : ℕ} {character : Char}

/-- A comment that the end of a line ends goes on where no line ends. -/
theorem RunsToLineEnd.covers_iff (runs : RunsToLineEnd written behind)
    (cut : text.drop start = written ++ behind) (notBlock : ¬ blockStart <+: written ++ behind)
    (behindStart : start ≤ first) (inside : first < start + written.length)
    (inText : last < text.length) :
    last < start + written.length ↔ GoesOn text start first (last + 1) := by
  have atPlace : ∀ index, text[start + index]? = (written ++ behind)[index]? := fun index => by
    rw [← List.getElem?_drop, cut]
  constructor
  · intro covered
    refine ⟨fun isBlock => absurd (cut ▸ isBlock) notBlock, fun _ index isBehind isAhead => ?_⟩
    intro other isThere
    obtain ⟨index, rfl⟩ := Nat.exists_eq_add_of_le (behindStart.trans isBehind)
    rw [atPlace, List.getElem?_append_left (by omega)] at isThere
    exact runs.inLine other (List.mem_of_getElem? isThere)
  · intro goesOn
    by_contra beyond
    have endsThere := atPlace written.length
    rw [List.getElem?_append_right (Nat.le_refl _), Nat.sub_self] at endsThere
    cases behind with
    | nil =>
        rw [List.getElem?_nil, List.getElem?_eq_none_iff] at endsThere
        omega
    | cons head rest =>
        have noEnd := goesOn.inLine (cut ▸ notBlock) _ inside.le (by omega) head endsThere
        rw [runs.stops head rfl] at noEnd
        cases noEnd

variable (absent : ¬ blockEnd <:+: body)

include absent

/-- A block comment goes on where no mark closes it. -/
theorem covers_iff_of_closed (cut : text.drop start = blockStart ++ body ++ blockEnd ++ behind)
    (inside : first < start + 4 + body.length)
    (notClosing : ∀ index, index + 1 = first → ¬ blockEnd <+: text.drop index)
    (isLast : text[last]? = some character) (notSlash : character ≠ '/') :
    last < start + 4 + body.length ↔ GoesOn text start first (last + 1) := by
  have isBlock : blockStart <+: text.drop start :=
    ⟨body ++ blockEnd ++ behind, by rw [cut]; simp only [List.append_assoc]⟩
  have inBody : ∀ index, text.drop (start + 2 + index) =
      (body ++ (blockEnd ++ behind)).drop index := fun index => by
    rw [← List.drop_drop, ← List.drop_drop, cut]
    simp only [List.append_assoc]
    rfl
  constructor
  · intro covered
    refine ⟨fun _ index isBehind inComment isAhead closes => ?_,
      fun notBlock => absurd isBlock notBlock⟩
    obtain ⟨index, rfl⟩ := Nat.exists_eq_add_of_le inComment
    by_cases amongBody : index < body.length
    · exact not_blockEnd_prefix_drop absent amongBody (inBody index ▸ closes)
    · -- Only the closing mark itself is left, and its slash is not the last character.
      obtain rfl : last = start + 2 + index + 1 := by omega
      obtain ⟨others, same⟩ := closes
      rw [← List.getElem?_drop, ← same] at isLast
      exact notSlash (Option.some.inj isLast).symm
  · intro goesOn
    by_contra beyond
    have closes : blockEnd <+: text.drop (start + 2 + body.length) := by
      rw [inBody, List.drop_left]
      exact List.prefix_append _ _
    refine goesOn.unclosed isBlock _ ?_ (by omega) (by omega) closes
    by_contra isAhead
    exact notClosing _ (by omega) closes

/-- A block comment that nothing closes goes on. -/
theorem covers_iff_of_unclosed (cut : text.drop start = blockStart ++ body)
    (inText : last < text.length) :
    last < start + 2 + body.length ↔ GoesOn text start first (last + 1) := by
  have inBody : ∀ index, text.drop (start + 2 + index) = body.drop index := fun index => by
    rw [← List.drop_drop, ← List.drop_drop, cut]
    rfl
  constructor
  · intro _
    refine ⟨fun _ index isBehind inComment _ closes => ?_,
      fun notBlock => absurd (cut ▸ List.prefix_append _ _) notBlock⟩
    obtain ⟨index, rfl⟩ := Nat.exists_eq_add_of_le inComment
    rw [inBody] at closes
    exact absent (closes.isInfix.trans (List.drop_suffix _ _).isInfix)
  · intro _
    have toEnd := congrArg List.length cut
    rw [List.length_drop, List.length_append] at toEnd
    have : blockStart.length = 2 := rfl
    omega

end Extent

/-- **A comment reaches a position exactly if it goes on up to there.** It is asked from a character
of the comment on that is not the slash of a closing mark, up to one that is no slash. -/
theorem IsComment.covers_iff {text written behind : List Char} {start first last : ℕ}
    {character : Char} (isComment : IsComment (text.take start) written behind)
    (cut : text.drop start = written ++ behind) (behindStart : start ≤ first)
    (inside : first < start + written.length)
    (notClosing : ∀ index, index + 1 = first → ¬ blockEnd <+: text.drop index)
    (isLast : text[last]? = some character) (notSlash : character ≠ '/') :
    last < start + written.length ↔ GoesOn text start first (last + 1) := by
  have inText := (List.getElem?_eq_some_iff.mp isLast).1
  rcases isComment.forms with ⟨runs, notBlock⟩ | ⟨body, absent, rfl | ⟨rfl, rfl⟩⟩
  · exact runs.covers_iff cut notBlock behindStart inside inText
  · have lengthEq : start + (blockStart ++ body ++ blockEnd).length = start + 4 + body.length := by
      simp only [List.length_append, blockStart, blockEnd, List.length_cons, List.length_nil]
      omega
    rw [lengthEq] at inside ⊢
    exact covers_iff_of_closed absent cut inside notClosing isLast notSlash
  · have lengthEq : start + (blockStart ++ body).length = start + 2 + body.length := by
      simp only [List.length_append, blockStart, List.length_cons, List.length_nil]
      omega
    rw [List.append_nil] at cut
    rw [lengthEq]
    exact covers_iff_of_unclosed absent cut inText

/-! ## The states of the reader -/

section Reader

variable (position : ℕ) (newline : Bool) (lead : Option ℕ)

/-- In a line comment the reader goes up to the end of the line. -/
theorem readGap_lineComment (text : List Char) :
    ∃ body behind, text = body ++ behind ∧ RunsToLineEnd body behind ∧
      readGap .lineComment text position newline lead =
        readGap .blanks behind (position + body.length) newline lead := by
  induction text generalizing position with
  | nil =>
      refine ⟨[], [], rfl, ⟨fun _ none => (List.not_mem_nil none).elim, ?_⟩, rfl⟩
      intro _ none
      cases none
  | cons character rest ih =>
      cases ends : isLineTerminator character with
      | true =>
          refine ⟨[], character :: rest, rfl, ⟨fun _ none => (List.not_mem_nil none).elim, ?_⟩, ?_⟩
          · rintro _ ⟨⟩
            exact ends
          · rw [readGap, readGap, if_pos ends, if_pos ends]
            rfl
      | false =>
          obtain ⟨body, behind, rfl, runs, same⟩ := ih (position + 1)
          refine ⟨character :: body, behind, rfl, ⟨?_, runs.stops⟩, ?_⟩
          · rintro other (_ | ⟨_, inBody⟩)
            · exact ends
            · exact runs.inLine other inBody
          · rw [readGap, if_neg (by simp [ends]), same, List.length_cons]
            congr 1
            omega

/-- A character that opens no end of a block comment leaves the text behind it without one. -/
theorem not_blockEnd_infix_cons {character : Char} {body : List Char}
    (opens : ¬ (character = '*' ∧ body.head? = some '/')) (absent : ¬ blockEnd <:+: body) :
    ¬ blockEnd <:+: character :: body := by
  rw [List.infix_cons_iff]
  rintro (⟨behind, same⟩ | inBody)
  · cases same
    exact opens ⟨rfl, rfl⟩
  · exact absent inBody

/-- In a block comment the reader goes up to the first mark that closes it, or to the end of the
text. -/
theorem readGap_blockComment (text : List Char) :
    ∃ newline', (∃ body behind, text = body ++ (blockEnd ++ behind) ∧ ¬ blockEnd <:+: body ∧
        readGap .blockComment text position newline lead =
          readGap .blanks behind (position + body.length + 2) newline' lead) ∨
      ¬ blockEnd <:+: text ∧ readGap .blockComment text position newline lead =
        readGap .blanks [] (position + text.length) newline' lead := by
  induction text generalizing position newline with
  | nil => exact ⟨newline, .inr ⟨by simp [blockEnd], rfl⟩⟩
  | cons character rest ih =>
      rw [readGap]
      split
      · rename_i closes
        rw [Bool.and_eq_true, beq_iff_eq, beq_iff_eq] at closes
        obtain ⟨rfl, isSlash⟩ := closes
        obtain ⟨behind, rfl⟩ := List.head?_eq_some_iff.mp isSlash
        exact ⟨newline, .inl ⟨[], behind, rfl, by simp [blockEnd], rfl⟩⟩
      · rename_i goesOn
        rw [Bool.and_eq_true, beq_iff_eq, beq_iff_eq] at goesOn
        obtain ⟨newline', ⟨body, behind, rfl, absent, same⟩ | ⟨absent, same⟩⟩ :=
          ih (position + 1) (newline || isLineTerminator character)
        · refine ⟨newline', .inl ⟨character :: body, behind, rfl, ?_, ?_⟩⟩
          · refine not_blockEnd_infix_cons (fun opens => goesOn ⟨opens.1, ?_⟩) absent
            rw [List.head?_append, opens.2, Option.some_or]
          · rw [same, List.length_cons]
            congr 1
            omega
        · refine ⟨newline', .inr ⟨not_blockEnd_infix_cons goesOn absent, ?_⟩⟩
          rw [same, List.length_cons]
          congr 1
          omega

/-- **Between two tokens the reader stops, or it passes over a part and goes on behind it.** -/
theorem readGap_step (front text : List Char) :
    (readGap .blanks text position newline lead).position = position ∨
      ∃ written behind newline' lead', text = written ++ behind ∧ written ≠ [] ∧
        IsGapPart front written behind ∧ readGap .blanks text position newline lead =
          readGap .blanks behind (position + written.length) newline' lead' := by
  cases text with
  | nil => exact .inl rfl
  | cons character rest =>
      rw [readGap]
      split_ifs with ends blank slashes star older
      · exact .inr ⟨[character], rest, true, lead, rfl, List.cons_ne_nil _ _,
          .blank (by rw [isGapBlank, ends, Bool.true_or]), rfl⟩
      · exact .inr ⟨[character], rest, newline, lead, rfl, List.cons_ne_nil _ _,
          .blank (by rw [isGapBlank, blank, Bool.or_true]), rfl⟩
      · rw [Bool.and_eq_true, beq_iff_eq, beq_iff_eq] at slashes
        obtain ⟨rfl, isSlash⟩ := slashes
        obtain ⟨rest, rfl⟩ := List.head?_eq_some_iff.mp isSlash
        obtain ⟨body, behind, rfl, runs, same⟩ :=
          readGap_lineComment (position + 1 + 1) newline lead rest
        refine .inr ⟨'/' :: '/' :: body, behind, newline, lead, rfl, List.cons_ne_nil _ _,
          .comment (.line runs), ?_⟩
        rw [readGap, if_neg (by decide), same, List.length_cons, List.length_cons]
        congr 1
        omega
      · rw [Bool.and_eq_true, beq_iff_eq, beq_iff_eq] at star
        obtain ⟨rfl, isStar⟩ := star
        obtain ⟨rest, rfl⟩ := List.head?_eq_some_iff.mp isStar
        rw [readGap]
        obtain ⟨newline', ⟨body, behind, rfl, absent, same⟩ | ⟨absent, same⟩⟩ :=
          readGap_blockComment (position + 1 + 1) newline lead rest
        · refine .inr ⟨'/' :: '*' :: (body ++ blockEnd), behind, newline', lead, ?_,
            List.cons_ne_nil _ _, .comment (.block absent), ?_⟩
          · rw [List.cons_append, List.cons_append, List.append_assoc]
          · rw [same, List.length_cons, List.length_cons, List.length_append]
            congr 1
            have : blockEnd.length = 2 := rfl
            omega
        · refine .inr ⟨'/' :: '*' :: rest, [], newline', lead, (List.append_nil _).symm,
            List.cons_ne_nil _ _, .comment (.unclosed absent), ?_⟩
          rw [same, List.length_cons, List.length_cons]
          congr 1
          omega
      · have opens : isLineTerminator character = false := Bool.eq_false_iff.mpr ends
        obtain ⟨body, behind, rfl, runs, same⟩ :=
          readGap_lineComment (position + 1) newline (lead.or (some position)) rest
        refine .inr ⟨character :: body, behind, newline, lead.or (some position), rfl,
          List.cons_ne_nil _ _, .legacy ⟨⟨newline, older⟩, ?_, runs.stops⟩, ?_⟩
        · rintro other (_ | ⟨_, inBody⟩)
          · exact opens
          · exact runs.inLine other inBody
        · rw [same, List.length_cons]
          congr 1
          omega
      · exact .inl rfl

end Reader

/-! ## What is passed over -/

/-- A cursor passes over the characters from the one position up to the other. -/
inductive PassesOver (text : List Char) : ℕ → ℕ → Prop
  /-- The characters that the reading of a text starts behind. -/
  | preamble : PassesOver text 0 (skipPreamble text).2
  /-- The characters from a position on, up to the token that a cursor comes to from there. -/
  | gap (start : ℕ) (newline : Bool) (cursor : Cursor) :
      PassesOver text start (cursor.next (text.drop start) start newline).position

/-- From the end of a token the reader passes over blanks and comments. -/
theorem isGap_readGap {text : List Char} (start : ℕ) (newline : Bool) (lead : Option ℕ) :
    IsGap text start (readGap .blanks (text.drop start) start newline lead).position := by
  induction shrinks : (text.drop start).length using Nat.strong_induction_on
    generalizing start newline lead with
  | _ length ih =>
      rcases readGap_step start newline lead (text.take start) (text.drop start) with
        stops | ⟨written, behind, newline', lead', cut, nonempty, isPart, same⟩
      · rw [stops]
        exact .done start
      · have next : text.drop (start + written.length) = behind := by
          rw [← List.drop_drop, cut, List.drop_left]
        have shorter : behind.length < length := by
          rw [← shrinks, cut, List.length_append]
          have := List.length_pos_of_ne_nil nonempty
          omega
        rw [same, ← next]
        exact .part cut isPart
          (ih _ (next ▸ shorter) (start + written.length) newline' lead' rfl)

/-- Behind the start of the text, or behind a byte order mark, the reader passes over a line that
names an interpreter. -/
theorem isGap_interpreter {text rest : List Char} {start : ℕ}
    (atTop : text.take start = [] ∨ text.take start = ['\uFEFF'])
    (isRest : text.drop start = '#' :: '!' :: rest) :
    IsGap text start (start +
      (('#' :: '!' :: rest).takeWhile fun character => !isLineTerminator character).length) := by
  have runs : RunsToLineEnd (rest.takeWhile fun character => !isLineTerminator character)
      (rest.dropWhile fun character => !isLineTerminator character) := by
    refine ⟨fun character inBody => ?_, fun character isHead => ?_⟩
    · simpa using List.mem_takeWhile_imp inBody
    · have stops := List.head?_dropWhile_not (fun character => !isLineTerminator character) rest
      rw [Option.mem_def] at isHead
      rw [isHead] at stops
      simpa using stops
  refine .part ?_ (.comment (.interpreter atTop runs)) (.done _)
  rw [isRest, List.cons_append, List.cons_append, List.takeWhile_append_dropWhile]

/-- Behind what it starts behind, a text goes on. -/
theorem skipPreamble_eq_drop (text : List Char) :
    (skipPreamble text).1 = text.drop (skipPreamble text).2 := by
  unfold skipPreamble
  split
  rename_i unmarked position isUnmarked
  have isRest : unmarked = text.drop position := by
    split at isUnmarked <;> cases isUnmarked <;> rfl
  split
  · rw [isRest]
    exact List.drop_drop
  · exact isRest

/-- **In front of its first token the reading of a text passes over two gaps**: what it starts
behind, and what stands from there to the token. -/
theorem passesOver_atStart (text : List Char) :
    PassesOver text 0 (skipPreamble text).2 ∧
      PassesOver text (skipPreamble text).2 (Cursor.atStart text).position := by
  refine ⟨.preamble, ?_⟩
  unfold Cursor.atStart
  split
  rename_i rest position isStart
  have isRest := skipPreamble_eq_drop text
  rw [isStart] at isRest ⊢
  dsimp only at isRest ⊢
  subst isRest
  exact .gap position true _

/-- **A cursor that goes over its token passes over the gap behind it.** -/
theorem passesOver_advance {text : List Char} {cursor : Cursor} (context : Context)
    (inText : cursor.rest = text.drop cursor.stop) (isToken : ∀ error, cursor.token ≠ .bad error) :
    ∃ after, Parser.advance context cursor = .ok () after ∧ after.lastStop = cursor.stop ∧
      PassesOver text after.lastStop after.position := by
  have moves : Parser.advance context cursor = .ok () (Cursor.next cursor.rest cursor.stop false
      { cursor with lastStop := cursor.stop }) := by
    rw [Parser.advance]
    change EStateM.Result.ok () _ = _
    dsimp only
    split
    · exact absurd ‹_› (isToken _)
    · rfl
  refine ⟨_, moves, rfl, ?_⟩
  rw [inText]
  exact .gap cursor.stop false _

/-- **What a cursor passes over is a row of blanks and comments.** -/
theorem PassesOver.isGap {text : List Char} {start stop : ℕ} (passes : PassesOver text start stop) :
    IsGap text start stop := by
  cases passes with
  | gap start newline _ => exact isGap_readGap start newline none
  | preamble =>
      unfold skipPreamble
      split
      rename_i unmarked position isUnmarked
      have atTop : (text.take position = [] ∨ text.take position = ['\uFEFF']) ∧
          text.drop position = unmarked ∧ IsGap text 0 position := by
        split at isUnmarked
        · cases isUnmarked
          exact ⟨.inr rfl, rfl, .part rfl (.blank (by decide)) (.done 1)⟩
        · cases isUnmarked
          exact ⟨.inl rfl, rfl, .done 0⟩
      obtain ⟨atTop, isRest, inFront⟩ := atTop
      split
      · exact inFront.trans (isGap_interpreter atTop isRest)
      · exact inFront

end SampleMethods.Script
