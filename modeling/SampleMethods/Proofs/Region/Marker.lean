import SampleMethods.Proofs.Text.Search
import SampleMethods.Region.Marker

/-!
# When a line carries a marker

A line carries a marker with a tag if it looks like a comment and has the tag in the
brackets of the first opening on it, and the tag is one word (`tag?_eq_some_iff`). That is,
it falls into certain pieces, among them the tag (`tag?_eq_some_iff_spell`): the bracket is
the first one behind the first opening, so that a malformed marker hides a good one behind
it. Whatever a marker names is a tag (`isTag_of_tag?`). A blank that is put behind a line
does not matter to it (`tag?_concat`).
-/

set_option autoImplicit false

namespace SampleMethods.Marker

theorem tag?_eq_some_iff {opening line tag : List Char} :
    tag? opening line = some tag ↔
      isComment (Text.trimStart line) = true ∧ ∃ behind padded,
        Text.behindFirst? opening (Text.trimStart line) = some behind ∧
        Text.beforeFirst? ']' behind = some padded ∧ Text.trim padded = tag ∧
        tag.isEmpty = false ∧ tag.any Text.isBlank = false := by
  unfold tag?
  cases isComment : Marker.isComment (Text.trimStart line) with
  | false => simp [isComment]
  | true =>
      simp only [isComment, if_true, true_and, bind, Option.bind_eq_some_iff]
      constructor
      · rintro ⟨behind, isBehind, padded, isPadded, isTag⟩
        split at isTag
        · cases isTag
        · rename_i isName
          rw [Bool.or_eq_true, not_or, Bool.not_eq_true, Bool.not_eq_true] at isName
          cases isTag
          exact ⟨behind, padded, isBehind, isPadded, rfl, isName⟩
      · rintro ⟨behind, padded, isBehind, isPadded, rfl, isEmpty, hasBlank⟩
        refine ⟨behind, isBehind, padded, isPadded, ?_⟩
        rw [isEmpty, hasBlank]
        rfl

/-! ## The pieces of a line -/

/-- The pieces that a line with a marker has beside the opening and the bracket: the blanks that it
begins with, what stands in front of the opening, what stands in the brackets and what is behind
them. -/
structure Parts where
  blanks : List Char
  front : List Char
  padded : List Char
  behind : List Char

namespace Parts

/-- The line without the blanks that it begins with. -/
def comment (parts : Parts) (opening : List Char) : List Char :=
  parts.front ++ opening ++ (parts.padded ++ ']' :: parts.behind)

/-- The pieces make the line, which looks like a comment, and the first opening on it has the tag in
its brackets, a word between blanks. -/
structure Spell (parts : Parts) (opening tag line : List Char) : Prop where
  line_eq : line = parts.blanks ++ parts.comment opening
  areBlanks : Text.AreBlanks parts.blanks
  visible : Text.BeginsVisible (parts.comment opening)
  isComment : ∃ leader ∈ ["//", "/*", "*", "#"], leader.toList <+: parts.comment opening
  first : ∀ n < parts.front.length, ¬opening <+: (parts.comment opening).drop n
  noBracket : ']' ∉ parts.padded
  trimmed : ∃ left right, parts.padded = left ++ tag ++ right ∧ Text.AreBlanks left ∧
    Text.AreBlanks right
  nonempty : tag ≠ []
  oneWord : ∀ character ∈ tag, Text.isBlank character = false

end Parts

theorem isComment_iff {comment : List Char} :
    isComment comment = true ↔
      ∃ leader ∈ ["//", "/*", "*", "#"], leader.toList <+: comment := by
  simp [isComment, commentOpenings]

/-- **A line carries a marker with a tag just if it falls into the pieces for it.** -/
theorem tag?_eq_some_iff_spell {opening line tag : List Char} :
    tag? opening line = some tag ↔ ∃ parts : Parts, parts.Spell opening tag line := by
  rw [tag?_eq_some_iff]
  constructor
  · rintro ⟨isComment, rest, padded, isRest, isPadded, isTag, notEmpty, noBlank⟩
    obtain ⟨blanks, lineEq, areBlanks, visible⟩ :=
      Text.trimStart_eq_iff.mp (rfl : Text.trimStart line = _)
    obtain ⟨front, cut, first⟩ := Text.behindFirst?_eq_some_iff.mp isRest
    obtain ⟨noBracket, behind, rfl⟩ := Text.beforeFirst?_eq_some_iff.mp isPadded
    have nonempty : tag ≠ [] := List.isEmpty_eq_false_iff.mp notEmpty
    have oneWord : ∀ character ∈ tag, Text.isBlank character = false := fun character member =>
      Bool.eq_false_iff.mpr (List.any_eq_false.mp noBlank character member)
    rw [cut] at lineEq visible isComment first
    exact ⟨⟨blanks, front, padded, behind⟩, lineEq, areBlanks, visible, isComment_iff.mp isComment,
      first, noBracket, (Text.trim_eq_iff nonempty oneWord).mp isTag, nonempty, oneWord⟩
  · rintro ⟨parts, spell⟩
    have trimmed : Text.trimStart line = parts.comment opening :=
      Text.trimStart_eq_iff.mpr ⟨parts.blanks, spell.line_eq, spell.areBlanks, spell.visible⟩
    rw [trimmed]
    refine ⟨isComment_iff.mpr spell.isComment, parts.padded ++ ']' :: parts.behind, parts.padded,
      Text.behindFirst?_eq_some_iff.mpr ⟨parts.front, rfl, spell.first⟩,
      Text.beforeFirst?_append_cons spell.noBracket _,
      (Text.trim_eq_iff spell.nonempty spell.oneWord).mpr spell.trimmed,
      List.isEmpty_eq_false_iff.mpr spell.nonempty, List.any_eq_false.mpr fun character member => ?_⟩
    rw [spell.oneWord character member]
    exact Bool.false_ne_true

example : tag? Edge.start.opening "# [START ] [START a]".toList = none := by decide

/-! ## Tags -/

/-- A tag is a word that the closing bracket of a marker can end. -/
structure IsTag (tag : String) : Prop where
  nonempty : tag ≠ ""
  noBlank : ∀ character ∈ tag.toList, Text.isBlank character = false
  noBracket : ']' ∉ tag.toList

theorem isTag_of_tag? {opening line : List Char} {tag : String}
    (marked : tag? opening line = some tag.toList) : IsTag tag := by
  obtain ⟨parts, spell⟩ := tag?_eq_some_iff_spell.mp marked
  refine ⟨?_, spell.oneWord, fun bracket => spell.noBracket ?_⟩
  · rintro rfl
    exact spell.nonempty rfl
  · obtain ⟨left, right, cut, _⟩ := spell.trimmed
    rw [cut, List.mem_append, List.mem_append]
    exact .inl (.inr bracket)

/-! ## Blanks behind a line -/

/-- No mark that a comment begins with has a blank. -/
theorem isComment_concat {character : Char} (blank : Text.isBlank character = true)
    (line : List Char) : isComment (line ++ [character]) = isComment line := by
  have visible : ∀ opening ∈ commentOpenings, ∀ mark ∈ opening, Text.isBlank mark = false := by
    simp [commentOpenings, Text.isBlank]
  have prefix_iff : ∀ opening ∈ commentOpenings,
      opening <+: line ++ [character] ↔ opening <+: line := by
    intro opening isOpening
    rw [List.prefix_concat_iff, or_iff_right]
    rintro rfl
    rw [visible _ isOpening character (by simp)] at blank
    cases blank
  rw [Bool.eq_iff_iff]
  simp only [isComment, List.any_eq_true, List.isPrefixOf_iff_prefix]
  exact exists_congr fun opening => and_congr_right (prefix_iff opening)

/-- **A blank behind a line does not matter to the marker**, unless the opening has that blank. -/
theorem tag?_concat {opening : List Char} {character : Char}
    (blank : Text.isBlank character = true) (absent : character ∉ opening) (line : List Char) :
    tag? opening (line ++ [character]) = tag? opening line := by
  have differs : character ≠ ']' := by
    rintro rfl
    cases blank
  refine Option.ext fun tag => ?_
  rw [tag?_eq_some_iff, tag?_eq_some_iff, Text.trimStart_concat blank]
  split_ifs with nothing
  · rw [nothing]
  · simp only [isComment_concat blank, Text.behindFirst?_concat absent, Option.map_eq_some_iff]
    constructor
    · rintro ⟨isComment, _, padded, ⟨behind, isBehind, rfl⟩, isPadded, rest⟩
      rw [Text.beforeFirst?_concat differs] at isPadded
      exact ⟨isComment, behind, padded, isBehind, isPadded, rest⟩
    · rintro ⟨isComment, behind, padded, isBehind, isPadded, rest⟩
      rw [← Text.beforeFirst?_concat differs] at isPadded
      exact ⟨isComment, _, padded, ⟨behind, isBehind, rfl⟩, isPadded, rest⟩

end SampleMethods.Marker
