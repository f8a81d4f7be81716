import Mathlib.Data.List.DropRight
import SampleMethods.Proofs.Text.Position
import SampleMethods.Text.Blank

/-!
# The first visible character of a line

A position that has as many line feeds in front of it as a line has, and is none of
the blanks that the line begins with, lies on the line behind its first visible
character (`exists_take_eq`), and `leadOf` is where that character stands.
-/

set_option autoImplicit false

namespace SampleMethods.Text

/-- What stands on the line of a position in front of it, as line feeds end lines. -/
def lineFront (text : List Char) (position : ℕ) : List Char :=
  (text.take position).rtakeWhile (· != '\n')

/-- The position of the first visible character of the line of a position, if one stands there in
front of the position. -/
def leadOf (text : List Char) (position : ℕ) : ℕ :=
  position - (trimStart (lineFront text position)).length

/-- A front of a text is whole lines, or none. -/
def EndsLine (front : List Char) : Prop :=
  front = [] ∨ ∃ earlier, front = earlier ++ ['\n']

/-- Whole lines have a line feed behind every piece of them. -/
theorem EndsLine.eq_nil {front line : List Char} (ends : EndsLine (front ++ line))
    (noFeed : '\n' ∉ line) : line = [] := by
  rcases List.eq_nil_or_concat line with rfl | ⟨before, last, rfl⟩
  · rfl
  · rcases ends with none | ⟨earlier, same⟩
    · simp at none
    · rw [List.concat_eq_append, ← List.append_assoc] at same
      obtain rfl := (List.append_singleton_inj.mp same).2
      simp at noFeed

theorem lineFront_eq {text front line : List Char} {position : ℕ}
    (begins : EndsLine front) (noFeed : '\n' ∉ line)
    (taken : text.take position = front ++ line) : lineFront text position = line := by
  have inLine : ∀ character ∈ line.reverse, (character != '\n') = true := fun character member =>
    bne_iff_ne.mpr fun same => noFeed (same ▸ List.mem_reverse.mp member)
  have ended : front.reverse.takeWhile (· != '\n') = [] := by
    rcases begins with rfl | ⟨earlier, rfl⟩
    · rfl
    · rw [List.reverse_concat, List.takeWhile_cons_of_neg (by decide)]
  rw [lineFront, taken, List.rtakeWhile, List.reverse_append,
    List.takeWhile_append_of_pos inLine, ended, List.append_nil, List.reverse_reverse]

/-- A position that has as many line feeds in front of it as a line has, and does not lie among the
blanks that the line begins with, lies on the line behind its first visible character. -/
theorem exists_take_eq {front blanks rest : List Char} {first here : Char} {position : ℕ}
    (begins : EndsLine front)
    (blank : ∀ character ∈ blanks, isBlank character = true)
    (isHere : (front ++ (blanks ++ first :: rest))[position]? = some here)
    (visible : isBlank here = false) (differs : here ≠ first)
    (feeds : ((front ++ (blanks ++ first :: rest)).take position).count '\n' = front.count '\n') :
    ∃ middle, (front ++ (blanks ++ first :: rest)).take position =
      front ++ (blanks ++ first :: middle) ∧ '\n' ∉ blanks ++ first :: middle := by
  have onLine : front.length ≤ position := by
    rcases begins with rfl | ⟨earlier, rfl⟩
    · exact Nat.zero_le _
    · by_contra inFront
      have atMost : position ≤ earlier.length := by
        rw [List.length_append, List.length_singleton] at inFront
        omega
      rw [List.append_assoc, List.take_append_of_le_length atMost, List.count_append,
        List.count_singleton_self] at feeds
      have := (List.take_sublist position earlier).count_le '\n'
      omega
  obtain ⟨index, rfl⟩ := Nat.exists_eq_add_of_le onLine
  rw [List.take_length_add_append, List.count_append, Nat.add_eq_left] at feeds
  rw [List.getElem?_append_right (Nat.le_add_right _ _), Nat.add_sub_cancel_left] at isHere
  have behindBlanks : blanks.length < index := by
    by_contra inFront
    rcases Nat.lt_or_eq_of_le (Nat.le_of_not_lt inFront) with among | rfl
    · rw [List.getElem?_append_left among] at isHere
      rw [blank here (List.mem_of_getElem? isHere)] at visible
      cases visible
    · rw [List.getElem?_append_right (Nat.le_refl _), Nat.sub_self] at isHere
      exact differs (Option.some.inj isHere).symm
  obtain ⟨others, rfl⟩ := Nat.exists_eq_add_of_lt behindBlanks
  rw [Nat.add_assoc, List.take_length_add_append, List.take_succ_cons] at feeds
  rw [Nat.add_assoc, List.take_length_add_append, List.take_length_add_append, List.take_succ_cons]
  exact ⟨rest.take others, rfl, List.count_eq_zero.mp feeds⟩

/-- The first visible character of a line stands behind the blanks that the line begins with. -/
theorem leadOf_eq {text front blanks middle : List Char} {first : Char} {position : ℕ}
    (begins : EndsLine front) (blank : ∀ character ∈ blanks, isBlank character = true)
    (visible : isBlank first = false) (noFeed : '\n' ∉ blanks ++ first :: middle)
    (inText : position ≤ text.length)
    (taken : text.take position = front ++ (blanks ++ first :: middle)) :
    leadOf text position = (front ++ blanks).length := by
  have positionEq := congrArg List.length taken
  rw [List.length_take, Nat.min_eq_left inText] at positionEq
  rw [leadOf, lineFront_eq begins noFeed taken, trimStart, List.dropWhile_append_of_pos blank,
    List.dropWhile_cons_of_neg (by simp [visible]), positionEq]
  simp only [List.length_append]
  omega

/-- Behind whole lines and blanks there are blanks alone in front on the line. -/
theorem EndsLine.isBlank_of_mem {front blanks earlier line : List Char} (begins : EndsLine front)
    (blank : ∀ character ∈ blanks, isBlank character = true)
    (same : front ++ blanks = earlier ++ line) (noFeed : '\n' ∉ line) :
    ∀ character ∈ line, isBlank character = true := by
  intro character member
  rcases List.append_eq_append_iff.mp same with ⟨_, _, rfl⟩ | ⟨others, rfl, rfl⟩
  · exact blank character (List.mem_append_right _ member)
  · rw [List.mem_append, not_or] at noFeed
    obtain rfl := begins.eq_nil noFeed.1
    exact blank character member

end SampleMethods.Text
