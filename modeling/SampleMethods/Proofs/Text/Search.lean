import Mathlib.Data.List.Infix
import SampleMethods.Text.Blank
import SampleMethods.Text.Search

/-!
# What a search in a text finds

A text is put together again from the pieces that a search cuts it into. A search for a
pattern cuts at the first place where the pattern stands (`behindFirst?_eq_some_iff`), one for a
character at the first place of the character (`beforeFirst?_eq_some_iff`). A text falls into
blanks, what is left without them, and blanks (`trim_eq_iff`).

One more blank at the end of a text changes none of this, but for the blank itself.
-/

set_option autoImplicit false

namespace SampleMethods.Text

/-! ## Patterns -/

/-- The text is cut at the first place where the pattern stands. -/
structure StandsFirst (pattern front behind text : List Char) : Prop where
  cut : text = front ++ pattern ++ behind
  first : ∀ n < front.length, ¬pattern <+: text.drop n

section StandsFirst

variable {pattern front behind text : List Char} {character : Char}

theorem standsFirst_nil :
    StandsFirst pattern front behind [] ↔ front = [] ∧ pattern = [] ∧ behind = [] := by
  constructor
  · rintro ⟨cut, _⟩
    simpa [and_assoc] using cut.symm
  · rintro ⟨rfl, rfl, rfl⟩
    exact ⟨rfl, fun n beyond => absurd beyond (Nat.not_lt_zero n)⟩

/-- The first place is at the front of the text or behind its first character. -/
theorem standsFirst_cons :
    StandsFirst pattern front behind (character :: text) ↔
      (front = [] ∧ character :: text = pattern ++ behind) ∨
      (¬pattern <+: character :: text ∧
        ∃ further, front = character :: further ∧ StandsFirst pattern further behind text) := by
  constructor
  · rintro ⟨cut, first⟩
    cases front with
    | nil => exact .inl ⟨rfl, cut⟩
    | cons head further =>
        rw [List.cons_append, List.cons_append, List.cons_eq_cons] at cut
        obtain ⟨rfl, cut⟩ := cut
        refine .inr ⟨first 0 (Nat.zero_lt_succ _), further, rfl, cut, fun n before => ?_⟩
        exact first (n + 1) (Nat.succ_lt_succ before)
  · rintro (⟨rfl, cut⟩ | ⟨notHere, further, rfl, cut, first⟩)
    · exact ⟨cut, fun n before => absurd before (Nat.not_lt_zero n)⟩
    · refine ⟨congrArg _ cut, fun n before => ?_⟩
      cases n with
      | zero => exact notHere
      | succ n => exact first n (Nat.lt_of_succ_lt_succ before)

/-- **A search finds the first place of a pattern.** -/
theorem behindFirst?_eq_some_iff :
    behindFirst? pattern text = some behind ↔ ∃ front, StandsFirst pattern front behind text := by
  induction text with
  | nil =>
      simp only [behindFirst?, standsFirst_nil, List.isEmpty_iff, exists_eq_left]
      split_ifs with isEmpty
      · simp [isEmpty, eq_comm]
      · simp [isEmpty]
  | cons character rest ih =>
      simp only [behindFirst?, standsFirst_cons, exists_or, exists_eq_left]
      split_ifs with isHere <;> rw [List.isPrefixOf_iff_prefix] at isHere
      · obtain ⟨after, same⟩ := isHere
        simp [← same]
      · rw [ih]
        constructor
        · rintro ⟨further, stands⟩
          exact .inr ⟨_, isHere, further, rfl, stands⟩
        · rintro (cut | ⟨_, _, further, _, stands⟩)
          · exact absurd ⟨behind, cut.symm⟩ isHere
          · exact ⟨further, stands⟩

/-- A character that the pattern does not have is only left over. -/
theorem behindFirst?_concat (absent : character ∉ pattern) (text : List Char) :
    behindFirst? pattern (text ++ [character]) =
      (behindFirst? pattern text).map (· ++ [character]) := by
  have prefix_iff : ∀ text : List Char, pattern <+: text ++ [character] ↔ pattern <+: text := by
    intro text
    rw [List.prefix_concat_iff, or_iff_right]
    rintro rfl
    simp at absent
  induction text with
  | nil =>
      have here := prefix_iff []
      rw [List.nil_append, List.prefix_nil] at here
      simp only [List.nil_append, behindFirst?, List.isPrefixOf_iff_prefix, here, List.isEmpty_iff]
      split_ifs with isEmpty
      · simp [isEmpty]
      · rfl
  | cons first rest ih =>
      have here := prefix_iff (first :: rest)
      rw [List.cons_append] at here
      simp only [List.cons_append, behindFirst?, List.isPrefixOf_iff_prefix, here, ih]
      split_ifs with isHere
      · rw [Option.map_some, ← List.cons_append, List.drop_append_of_le_length isHere.length_le]
      · rfl

end StandsFirst

/-! ## Characters -/

section Characters

variable {mark character : Char} {text front : List Char}

theorem beforeFirst?_append_cons (absent : mark ∉ front) (behind : List Char) :
    beforeFirst? mark (front ++ mark :: behind) = some front := by
  have differ : ∀ character ∈ front, (character != mark) = true := by
    intro character member
    exact bne_iff_ne.mpr fun same => absent (same ▸ member)
  have isThere : (front ++ mark :: behind).contains mark = true :=
    List.contains_iff_mem.mpr (by simp)
  rw [beforeFirst?, if_pos isThere, List.takeWhile_append_of_pos differ,
    List.takeWhile_cons_of_neg (by simp), List.append_nil]

theorem beforeFirst?_of_not_mem (absent : mark ∉ text) : beforeFirst? mark text = none := by
  rw [beforeFirst?, if_neg (by simpa using absent)]

/-- **A search finds the first place of a character.** -/
theorem beforeFirst?_eq_some_iff :
    beforeFirst? mark text = some front ↔
      mark ∉ front ∧ ∃ behind, text = front ++ mark :: behind := by
  constructor
  · intro found
    by_cases isThere : mark ∈ text
    · obtain ⟨first, behind, rfl, absent⟩ := List.eq_append_cons_of_mem isThere
      rw [beforeFirst?_append_cons absent] at found
      cases found
      exact ⟨absent, behind, rfl⟩
    · rw [beforeFirst?_of_not_mem isThere] at found
      cases found
  · rintro ⟨absent, behind, rfl⟩
    exact beforeFirst?_append_cons absent behind

theorem beforeFirst?_concat (differs : character ≠ mark) (text : List Char) :
    beforeFirst? mark (text ++ [character]) = beforeFirst? mark text := by
  by_cases isThere : mark ∈ text
  · obtain ⟨front, behind, rfl, absent⟩ := List.eq_append_cons_of_mem isThere
    rw [List.append_assoc, List.cons_append, beforeFirst?_append_cons absent,
      beforeFirst?_append_cons absent]
  · have stillAbsent : mark ∉ text ++ [character] := by
      simpa [isThere] using differs.symm
    rw [beforeFirst?_of_not_mem isThere, beforeFirst?_of_not_mem stillAbsent]

/-- A pattern of one character stands first where the character does not stand in front. -/
theorem standsFirst_singleton_iff {behind : List Char} :
    StandsFirst [mark] front behind text ↔ mark ∉ front ∧ text = front ++ mark :: behind := by
  constructor
  · rintro ⟨rfl, first⟩
    refine ⟨fun member => ?_, by simp⟩
    obtain ⟨before, after, rfl⟩ := List.append_of_mem member
    exact first before.length (by simp) (by simp)
  · rintro ⟨absent, rfl⟩
    refine ⟨by simp, fun n before isHere => absent ?_⟩
    rw [List.singleton_prefix_iff_head?_eq_some, List.head?_drop,
      List.getElem?_append_left before] at isHere
    exact List.mem_of_getElem? isHere

end Characters

/-! ## Blanks -/

/-- Every character of the text is blank. -/
def AreBlanks (text : List Char) : Prop :=
  ∀ character ∈ text, isBlank character = true

/-- The text does not begin with a blank. -/
def BeginsVisible (text : List Char) : Prop :=
  ∀ character, text.head? = some character → isBlank character = false

section Blanks

variable {text rest word left right : List Char} {character : Char}

/-- **The blanks that a text begins with are taken away, and nothing else.** -/
theorem trimStart_eq_iff :
    trimStart text = rest ↔
      ∃ blanks, text = blanks ++ rest ∧ AreBlanks blanks ∧ BeginsVisible rest := by
  constructor
  · rintro rfl
    refine ⟨text.takeWhile isBlank, List.takeWhile_append_dropWhile.symm,
      List.all_eq_true.mp List.all_takeWhile, fun character isFirst => ?_⟩
    have stopped := List.head?_dropWhile_not isBlank text
    rw [trimStart] at isFirst
    rw [isFirst] at stopped
    exact stopped
  · rintro ⟨blanks, rfl, areBlanks, visible⟩
    rw [trimStart, List.dropWhile_append_of_pos areBlanks]
    cases rest with
    | nil => rfl
    | cons first others => exact List.dropWhile_cons_of_neg (by simp [visible first rfl])

/-- The blanks at the end of a text are taken away, and nothing else. -/
theorem exists_of_trimEnd (text : List Char) :
    ∃ blanks, text = trimEnd text ++ blanks ∧ AreBlanks blanks := by
  induction text with
  | nil => exact ⟨[], rfl, fun _ none => absurd none List.not_mem_nil⟩
  | cons character rest ih =>
      obtain ⟨blanks, cut, areBlanks⟩ := ih
      rw [trimEnd]
      cases kept : trimEnd rest with
      | nil =>
          rw [kept, List.nil_append] at cut
          subst cut
          cases blank : isBlank character with
          | true => exact ⟨character :: rest, rfl, List.forall_mem_cons.mpr ⟨blank, areBlanks⟩⟩
          | false => exact ⟨rest, rfl, areBlanks⟩
      | cons first others =>
          rw [kept] at cut
          exact ⟨blanks, congrArg _ cut, areBlanks⟩

theorem trimEnd_of_areBlanks (areBlanks : AreBlanks text) : trimEnd text = [] := by
  induction text with
  | nil => rfl
  | cons character rest ih =>
      obtain ⟨blank, others⟩ := List.forall_mem_cons.mp areBlanks
      rw [trimEnd, ih others, blank]
      rfl

theorem trimEnd_append (visible : ∀ character ∈ word, isBlank character = false)
    (areBlanks : AreBlanks right) : trimEnd (word ++ right) = word := by
  induction word with
  | nil => exact trimEnd_of_areBlanks areBlanks
  | cons character word ih =>
      obtain ⟨here, others⟩ := List.forall_mem_cons.mp visible
      rw [List.cons_append, trimEnd, ih others, here]
      cases word <;> rfl

/-- **What a text is trimmed to stands in it between blanks.** -/
theorem trim_eq_iff (nonempty : word ≠ [])
    (visible : ∀ character ∈ word, isBlank character = false) :
    trim text = word ↔
      ∃ left right, text = left ++ word ++ right ∧ AreBlanks left ∧ AreBlanks right := by
  constructor
  · rintro rfl
    obtain ⟨left, cut, leftBlank, _⟩ := trimStart_eq_iff.mp (rfl : trimStart text = _)
    obtain ⟨right, cutEnd, rightBlank⟩ := exists_of_trimEnd (trimStart text)
    refine ⟨left, right, ?_, leftBlank, rightBlank⟩
    rw [List.append_assoc, trim, ← cutEnd]
    exact cut
  · rintro ⟨left, right, rfl, leftBlank, rightBlank⟩
    have started : trimStart (left ++ word ++ right) = word ++ right := by
      refine trimStart_eq_iff.mpr ⟨left, List.append_assoc _ _ _, leftBlank, ?_⟩
      obtain ⟨first, others, rfl⟩ := List.exists_cons_of_ne_nil nonempty
      rintro character isFirst
      cases isFirst
      exact visible first List.mem_cons_self
    rw [trim, started, trimEnd_append visible rightBlank]

theorem trimStart_concat (blank : isBlank character = true) (text : List Char) :
    trimStart (text ++ [character]) =
      if trimStart text = [] then [] else trimStart text ++ [character] := by
  rw [trimStart, List.dropWhile_append, ← trimStart]
  cases trimStart text with
  | nil => exact List.dropWhile_cons_of_pos blank
  | cons first others => rfl

end Blanks

end SampleMethods.Text
