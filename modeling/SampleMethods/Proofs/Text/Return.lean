import Mathlib.Data.List.Forall2
import SampleMethods.Proofs.Text.Position

/-!
# Texts with carriage returns in front of their line feeds

A text may end its lines with a carriage return and a line feed instead of a line feed alone.
Then it is cut into the same lines, but for a carriage return that a line may have more at its
end (`splitLines_withReturns`). That happens where the text had carriage returns before. Where
it had none, all characters are on the lines they were on (`lineAt_withReturns`).
-/

set_option autoImplicit false

namespace SampleMethods.Text

/-- The text with a carriage return in front of every line feed. -/
def withReturns (text : List Char) : List Char :=
  text.flatMap fun character => if character = '\n' then ['\r', '\n'] else [character]

section WithReturns

variable {text : List Char}

theorem withReturns_feed (rest : List Char) :
    withReturns ('\n' :: rest) = '\r' :: '\n' :: withReturns rest := rfl

theorem withReturns_cons {character : Char} (notFeed : character ≠ '\n') (rest : List Char) :
    withReturns (character :: rest) = character :: withReturns rest := by
  rw [withReturns, List.flatMap_cons, if_neg notFeed]
  rfl

theorem withReturns_append (front behind : List Char) :
    withReturns (front ++ behind) = withReturns front ++ withReturns behind :=
  List.flatMap_append

theorem head?_withReturns : (withReturns text).head? ≠ some '\n' := by
  cases text with
  | nil => simp [withReturns]
  | cons character rest =>
      by_cases isFeed : character = '\n'
      · subst isFeed
        simp [withReturns_feed]
      · simpa [withReturns_cons isFeed] using isFeed

theorem withReturns_ne_nil (nonempty : text ≠ []) : withReturns text ≠ [] := by
  obtain ⟨character, rest, rfl⟩ := List.exists_cons_of_ne_nil nonempty
  by_cases isFeed : character = '\n'
  · simp [isFeed, withReturns_feed]
  · simp [withReturns_cons isFeed]

/-! ## Lines -/

/-- What a line may be when the text has carriage returns in front of its line feeds. -/
def IsReturned (line returned : List Char) : Prop :=
  returned = line ∨ returned = line ++ ['\r']

theorem IsReturned.cons {line returned : List Char} (isReturned : IsReturned line returned)
    (character : Char) : IsReturned (character :: line) (character :: returned) := by
  rcases isReturned with rfl | rfl
  · exact .inl rfl
  · exact .inr rfl

/-- A character that is no line feed belongs to the line of what follows. -/
theorem splitLines_withReturns_cons {character : Char} (notFeed : character ≠ '\n')
    {rest : List Char} (nonempty : rest ≠ []) :
    splitLines (withReturns (character :: rest)) =
      match splitLines (withReturns rest) with
      | [] => [[character]]
      | line :: lines => (character :: line) :: lines := by
  have apart : ∀ others, character = '\r' → withReturns rest ≠ '\n' :: others :=
    fun others _ same => head?_withReturns (by rw [same]; rfl)
  rw [withReturns_cons notFeed]
  exact splitLines.eq_5 character _ notFeed apart (withReturns_ne_nil nonempty)

/-- **The lines are the same, but for a carriage return at the end.** -/
theorem splitLines_withReturns (text : List Char) :
    List.Forall₂ IsReturned (splitLines text) (splitLines (withReturns text)) := by
  induction text using splitLines.induct with
  | case1 => exact .nil
  | case2 rest ih => exact .cons (.inl rfl) ih
  | case3 rest ih =>
      -- The carriage return that the line feed had already is now one of the line.
      have cut : splitLines ('\r' :: '\r' :: '\n' :: withReturns rest) =
          ['\r'] :: splitLines (withReturns rest) := rfl
      rw [withReturns_cons (by decide), withReturns_feed, cut]
      exact .cons (.inr rfl) ih
  | case4 character notFeed =>
      rw [withReturns_cons notFeed]
      exact List.forall₂_same.mpr fun _ _ => .inl rfl
  | case5 character rest notFeed notReturn nonempty nothing ih =>
      rw [nothing, List.forall₂_nil_left_iff] at ih
      rw [splitLines.eq_5 character rest notFeed notReturn nonempty, nothing,
        splitLines_withReturns_cons notFeed nonempty, ih]
      exact .cons (.inl rfl) .nil
  | case6 character rest notFeed notReturn nonempty line lines cut ih =>
      rw [cut, List.forall₂_cons_left_iff] at ih
      obtain ⟨returned, others, isReturned, areReturned, cutReturned⟩ := ih
      rw [splitLines.eq_5 character rest notFeed notReturn nonempty, cut,
        splitLines_withReturns_cons notFeed nonempty, cutReturned]
      exact .cons (isReturned.cons character) areReturned

/-! ## Positions -/

/-- The place in the text with carriage returns belongs to the position: the same stands in front
of both, and what stands at a line feed has two places. -/
def Corresponds (text : List Char) (position place : ℕ) : Prop :=
  place = (withReturns (text.take position)).length ∨
    text[position]? = some '\n' ∧ place = (withReturns (text.take position)).length + 1

theorem count_withReturns (text : List Char) : (withReturns text).count '\n' = text.count '\n' := by
  induction text with
  | nil => rfl
  | cons character rest ih =>
      by_cases isFeed : character = '\n'
      · subst isFeed
        rw [withReturns_feed, List.count_cons_of_ne (by decide), List.count_cons_self,
          List.count_cons_self, ih]
      · rw [withReturns_cons isFeed, List.count_cons_of_ne isFeed, List.count_cons_of_ne isFeed, ih]

theorem NoLoneReturn.cons {character : Char} {rest : List Char} (noLone : NoLoneReturn rest)
    (fed : character = '\r' → rest.head? = some '\n') : NoLoneReturn (character :: rest) := by
  intro index isReturn
  cases index with
  | zero =>
      rw [List.getElem?_cons_zero, Option.some.injEq] at isReturn
      rw [List.getElem?_cons_succ, ← List.head?_eq_getElem?]
      exact fed isReturn
  | succ index => exact noLone index isReturn

theorem noLoneReturn_of_not_mem (noReturn : '\r' ∉ text) : NoLoneReturn text :=
  fun _ isReturn => absurd (List.mem_of_getElem? isReturn) noReturn

theorem noLoneReturn_withReturns (noReturn : '\r' ∉ text) : NoLoneReturn (withReturns text) := by
  induction text with
  | nil => exact noLoneReturn_of_not_mem noReturn
  | cons character rest ih =>
      rw [List.mem_cons, not_or] at noReturn
      have rest := ih noReturn.2
      by_cases isFeed : character = '\n'
      · subst isFeed
        rw [withReturns_feed]
        exact (rest.cons fun same => absurd same (by decide)).cons fun _ => rfl
      · rw [withReturns_cons isFeed]
        exact rest.cons fun same => absurd same.symm noReturn.1

/-- In front of a place stand as many line feeds as in front of its position. -/
theorem Corresponds.count_take {position place : ℕ} (corresponds : Corresponds text position place) :
    ((withReturns text).take place).count '\n' = (text.take position).count '\n' := by
  have cut : withReturns text =
      withReturns (text.take position) ++ withReturns (text.drop position) := by
    rw [← withReturns_append, List.take_append_drop]
  rw [← count_withReturns (text.take position), cut]
  rcases corresponds with rfl | ⟨isFeed, rfl⟩
  · rw [List.take_left]
  · obtain ⟨rest, behind⟩ : ∃ rest, text.drop position = '\n' :: rest := by
      rw [← List.head?_drop] at isFeed
      exact List.head?_eq_some_iff.mp isFeed
    rw [behind, withReturns_feed, List.take_length_add_append, List.take_succ_cons, List.take_zero,
      List.count_append]
    rfl

/-- **Where the text had no carriage returns, all places are on the lines of their positions.** -/
theorem lineAt_withReturns (noReturn : '\r' ∉ text) {position place : ℕ}
    (corresponds : Corresponds text position place) :
    lineAt (withReturns text) place = lineAt text position := by
  rw [lineAt_eq_count (noLoneReturn_withReturns noReturn),
    lineAt_eq_count (noLoneReturn_of_not_mem noReturn), corresponds.count_take]

end WithReturns

end SampleMethods.Text
