import SampleMethods.Proofs.Region.Place
import SampleMethods.Proofs.Script.Comment
import SampleMethods.Proofs.Source.Tagging
import SampleMethods.Proofs.Text.Lead

/-!
# Markers and comments

A line is taken for a comment by its first visible characters. Where the reader of
tokens passes over them between two tokens, they do belong to a comment, and the
marker on the line lies in it exactly if nothing ends the comment in front of the
closing bracket (`markers_in_comments`). Where they belong to a token, the marker may
be anything: a region may run between two template literals
(`extract_templateText`).
-/

set_option autoImplicit false

namespace SampleMethods

open Marker (Edge)
open Script (IsComment IsGap PassesOver IsCommentBetween Span blockStart blockEnd isLineTerminator)

/-! ## The line of a marker -/

/-- The position behind the closing bracket of a marker that begins at the position. -/
def Marker.stopOf (text : List Char) (position : ℕ) : ℕ :=
  position + ((text.drop position).takeWhile (· != ']')).length + 1

/-- The characters that a line with a marker begins with. -/
def Marker.leadMarks : List Char :=
  ['/', '*', '#']

/-- A line of the text has its first visible character at the position, and it is one that a line
with a marker begins with. -/
structure Marker.IsLead (text : List Char) (lead : ℕ) : Prop where
  opens : ∃ character ∈ leadMarks, text[lead]? = some character
  inFront : ∀ front line, text.take lead = front ++ line → '\n' ∉ line →
    ∀ character ∈ line, Text.isBlank character = true

namespace Marker

theorem StandsAt.exists_stopOf_eq {text : List Char} {edge : Edge} {tag : String}
    {number position : ℕ} (stands : StandsAt text edge tag number position) :
    ∃ last, stopOf text position = last + 1 ∧ position < last ∧ text[last]? = some ']' := by
  obtain ⟨padded, behind, written, noBracket, _⟩ := stands.written
  have inMarker : ∀ character ∈ edge.opening ++ padded, (character != ']') = true := by
    intro character member
    rw [bne_iff_ne]
    rintro rfl
    rcases List.mem_append.mp member with inOpening | inPadded
    · cases edge <;> exact absurd inOpening (by decide)
    · exact noBracket inPadded
  refine ⟨position + (edge.opening ++ padded).length, ?_, ?_, ?_⟩
  · rw [Marker.stopOf, written, List.takeWhile_append_of_pos inMarker,
      List.takeWhile_cons_of_neg (by decide), List.append_nil]
  · have : 0 < edge.opening.length := by cases edge <;> decide
    rw [List.length_append]
    omega
  · rw [← List.getElem?_drop, written, List.getElem?_append_right (Nat.le_refl _), Nat.sub_self]
    rfl

theorem exists_first_of_isComment {line : List Char} (isComment : Marker.isComment line = true) :
    ∃ character ∈ leadMarks, ∃ rest, line = character :: rest := by
  obtain ⟨opening, isOpening, opens⟩ := List.any_eq_true.mp isComment
  obtain ⟨behind, rfl⟩ := List.isPrefixOf_iff_prefix.mp opens
  simp only [commentOpenings, List.mem_cons, List.not_mem_nil, or_false] at isOpening
  rcases isOpening with rfl | rfl | rfl | rfl
  all_goals exact ⟨_, by decide, _, rfl⟩

theorem visible_of_mem_leadMarks {mark : Char} (isMark : mark ∈ leadMarks) :
    Script.isGapBlank mark = false ∧ Text.isBlank mark = false ∧ '[' ≠ mark := by
  simp only [leadMarks, List.mem_cons, List.not_mem_nil, or_false] at isMark
  rcases isMark with rfl | rfl | rfl <;> decide

theorem apart_of_mem_legacyMarks {mark : Char} (isMark : mark ∈ Script.legacyMarks) :
    mark ∉ leadMarks ∧ Text.isBlank mark = false := by
  simp only [Script.legacyMarks, List.mem_cons, List.not_mem_nil, or_false] at isMark
  rcases isMark with rfl | rfl | rfl | rfl | rfl <;> decide

theorem StandsAt.getElem?_eq {text : List Char} {edge : Edge} {tag : String}
    {number position : ℕ} (stands : StandsAt text edge tag number position) :
    text[position]? = some '[' := by
  obtain ⟨padded, behind, written, _⟩ := stands.written
  rw [← List.head?_drop, written]
  cases edge <;> rfl

/-- The line of a marker begins in front of it with the mark of a comment. -/
theorem StandsAt.isLead {text : List Char} {edge : Edge} {tag : String} {number position : ℕ}
    (marked : Region.markAt (Region.marks tag text) number = some edge)
    (stands : StandsAt text edge tag number position) :
    IsLead text (Text.leadOf text position) ∧ Text.leadOf text position < position := by
  obtain ⟨index, line, rfl, isLine, isEdge⟩ := Region.markAt_marks.mp marked
  obtain ⟨front, behind, textEq, cut⟩ := Text.exists_of_splitLines_getElem? isLine
  obtain ⟨looksLike, _⟩ := tag?_eq_some_iff.mp (Region.tag?_of_edgeOf? isEdge)
  obtain ⟨first, isFirst, rest, commentEq⟩ := exists_first_of_isComment looksLike
  obtain ⟨blanks, blank, lineEq⟩ : ∃ blanks, (∀ character ∈ blanks, Text.isBlank character = true) ∧
      line = blanks ++ first :: rest := by
    refine ⟨line.takeWhile Text.isBlank, fun _ => List.mem_takeWhile_imp, ?_⟩
    rw [← commentEq, Text.trimStart, List.takeWhile_append_dropWhile]
  obtain rfl : text = front ++ (blanks ++ first :: (rest ++ behind)) := by
    rw [textEq, lineEq]
    simp only [List.append_assoc, List.cons_append]
  obtain ⟨_, isVisible, differs⟩ := visible_of_mem_leadMarks isFirst
  have feeds := cut.feeds.trans (Nat.succ.inj stands.onLine).symm
  obtain ⟨middle, taken, noFeed⟩ := Text.exists_take_eq cut.begins blank stands.getElem?_eq
    (by decide) differs feeds.symm
  have inText := (List.getElem?_eq_some_iff.mp stands.getElem?_eq).1
  rw [Text.leadOf_eq cut.begins blank isVisible noFeed inText.le taken]
  refine ⟨⟨⟨first, isFirst, ?_⟩, fun earlier line isTaken => ?_⟩, ?_⟩
  · rw [← List.append_assoc, List.getElem?_append_right (Nat.le_refl _), Nat.sub_self]
    rfl
  · rw [← List.append_assoc, List.take_left] at isTaken
    exact Text.EndsLine.isBlank_of_mem cut.begins blank isTaken
  · have positionEq := congrArg List.length taken
    rw [List.length_take, Nat.min_eq_left inText.le] at positionEq
    rw [positionEq]
    simp only [List.length_append, List.length_cons]
    omega

/-! ## The comment of a marker -/

namespace IsLead

variable {text : List Char} {lead : ℕ} (isLead : IsLead text lead)

include isLead

/-- The line does not begin with the slash of a closing mark, whose star would stand in front. -/
theorem not_closing {index : ℕ} (isNext : index + 1 = lead) : ¬ blockEnd <+: text.drop index := by
  rintro ⟨rest, same⟩
  have isStar : text[index]? = some '*' := by
    rw [← List.head?_drop, ← same]
    rfl
  have taken : text.take lead = text.take index ++ ['*'] := by
    rw [← isNext, List.take_add_one, isStar]
    rfl
  have isBlank := isLead.inFront _ _ taken (by decide) '*' List.mem_cons_self
  exact absurd isBlank (by decide)

/-- The line does not begin within a comment that an older mark opens. -/
theorem not_legacy {first : ℕ} {written behind : List Char}
    (cut : text.drop first = written ++ behind) (behindFirst : first ≤ lead)
    (inComment : lead < first + written.length) : ¬ Script.IsLegacyComment written behind := by
  intro isLegacy
  obtain ⟨mark, isMark, isFirst⟩ := isLegacy.exists_first
  obtain ⟨character, isOpening, isHere⟩ := isLead.opens
  obtain ⟨index, rfl⟩ := Nat.exists_eq_add_of_le behindFirst
  cases index with
  | zero =>
      rw [Nat.add_zero, ← List.head?_drop, cut, isFirst] at isHere
      cases isHere
      exact (apart_of_mem_legacyMarks isMark).1 isOpening
  | succ index =>
      -- The mark stands on the same line as what it opens, in front of the first visible character.
      have taken : text.take (first + (index + 1)) =
          text.take first ++ written.take (index + 1) := by
        rw [List.take_add, cut, List.take_append_of_le_length (by omega)]
      have inLine : '\n' ∉ written.take (index + 1) := fun feed =>
        absurd (isLegacy.runs.inLine '\n' (List.mem_of_mem_take feed)) (by decide)
      cases written with
      | nil => exact absurd inComment (by simp)
      | cons head rest =>
          cases isFirst
          have blank := isLead.inFront _ _ taken inLine mark List.mem_cons_self
          rw [(apart_of_mem_legacyMarks isMark).2] at blank
          cases blank

/-- **Where the first visible character of a line is passed over, it belongs to a comment.** -/
theorem exists_comment {start stop : ℕ} (isGap : IsGap text start stop) (behindStart : start ≤ lead)
    (beforeStop : lead < stop) : ∃ first written behind, IsGap text start first ∧
      text.drop first = written ++ behind ∧ IsComment (text.take first) written behind ∧
      first ≤ lead ∧ lead < first + written.length ∧
      IsGap text (first + written.length) stop := by
  obtain ⟨first, written, behind, inFront, cut, isPart, behindFirst, inPart, others⟩ :=
    isGap.exists_part behindStart beforeStop
  obtain ⟨character, isOpening, isHere⟩ := isLead.opens
  cases isPart with
  | comment isComment =>
      exact ⟨first, written, behind, inFront, cut, isComment, behindFirst, inPart, others⟩
  | blank isBlank =>
      obtain rfl : lead = first := by
        rw [List.length_singleton] at inPart
        omega
      rw [← List.head?_drop, cut] at isHere
      cases isHere
      rw [(visible_of_mem_leadMarks isOpening).1] at isBlank
      cases isBlank
  | legacy isLegacy =>
      exact absurd isLegacy (isLead.not_legacy cut behindFirst inPart)

end IsLead

/-- **A marker whose line begins between tokens stands on a line that begins in a comment, and lies
in that comment exactly if nothing ends it in front.** -/
theorem StandsAt.exists_comment {text : List Char} {edge : Edge} {tag : String}
    {number position start stop : ℕ}
    (marked : Region.markAt (Region.marks tag text) number = some edge)
    (stands : StandsAt text edge tag number position) (passes : PassesOver text start stop)
    (behindStart : start ≤ Text.leadOf text position)
    (beforeStop : Text.leadOf text position < stop) :
    ∃ comment, IsCommentBetween text start stop comment ∧
      comment.start ≤ Text.leadOf text position ∧ Text.leadOf text position < comment.stop ∧
      (stopOf text position ≤ comment.stop ↔
        Script.GoesOn text comment.start (Text.leadOf text position) (stopOf text position)) := by
  obtain ⟨isLead, _⟩ := stands.isLead marked
  obtain ⟨first, written, behind, inFront, cut, isComment, behindFirst, inComment, others⟩ :=
    isLead.exists_comment passes.isGap behindStart beforeStop
  obtain ⟨last, stopEq, _, isBracket⟩ := stands.exists_stopOf_eq
  refine ⟨⟨first, first + written.length⟩,
    ⟨inFront, ⟨written, behind, cut, isComment, rfl⟩, others⟩, behindFirst, inComment, ?_⟩
  rw [stopEq, Nat.succ_le_iff]
  exact isComment.covers_iff cut behindFirst inComment (fun _ => isLead.not_closing) isBracket
    (by decide)

end Marker

namespace Region

/-- **Markers lie in comments where their lines begin between tokens.** Every region of a text runs
between two markers, and each of them has a visible character in front of it on its line. Where the
reader of tokens passes over the first such character, it belongs to a comment among what is passed
over there, and the marker lies in that comment exactly if nothing ends the comment in between. -/
theorem markers_in_comments {text : List Char} {region : Region}
    (isRegion : region ∈ extract text) :
    (∃ first last, region.RunsBetween text first last) ∧
      ∀ first last, region.RunsBetween text first last → ∀ position ∈ [first, last],
        Text.leadOf text position < position ∧
          ∀ start stop, PassesOver text start stop → start ≤ Text.leadOf text position →
            Text.leadOf text position < stop →
            ∃ comment, IsCommentBetween text start stop comment ∧
              comment.start ≤ Text.leadOf text position ∧
              Text.leadOf text position < comment.stop ∧
              (Marker.stopOf text position ≤ comment.stop ↔
                Script.GoesOn text comment.start (Text.leadOf text position)
                  (Marker.stopOf text position)) := by
  refine ⟨exists_runsBetween isRegion, ?_⟩
  rintro first last ⟨_, _, isPair, _, _, isFirst, isLast⟩ position (_ | ⟨_, _ | ⟨_, none⟩⟩)
  · exact ⟨(isFirst.isLead isPair.start).2, fun _ _ => isFirst.exists_comment isPair.start⟩
  · exact ⟨(isLast.isLead isPair.finish).2, fun _ _ => isLast.exists_comment isPair.finish⟩
  · cases none

/-- A region whose start marker is a line comment, and whose finish marker stands in a block
comment. -/
def commentedText : List Char :=
  "// [START a]\nfunction f() {}\n/*\n * [END a]\n */\nf();\n".toList

theorem markers_in_comments_commentedText :
    ⟨"a", .ofNat 1, .ofNat 4⟩ ∈ extract commentedText ∧
      (∃ comment, IsCommentBetween commentedText 0 13 comment ∧ comment.start ≤ 3 ∧
        12 ≤ comment.stop) ∧
      ∃ comment, IsCommentBetween commentedText 28 47 comment ∧ comment.start ≤ 35 ∧
        42 ≤ comment.stop := by
  have runs : RunsBetween ⟨"a", .ofNat 1, .ofNat 4⟩ commentedText 3 35 :=
    ⟨1, 4, ⟨by decide, by decide, by decide, by decide⟩, rfl, rfl,
      ⟨by decide, ['a'], commentedText.drop 12, by decide, by decide, by decide, by decide⟩,
      ⟨by decide, ['a'], commentedText.drop 42, by decide, by decide, by decide, by decide⟩⟩
  have each := (markers_in_comments runs.mem_extract).2 3 35 runs
  have inFront : PassesOver commentedText 0 13 := .gap 0 true (.atStart commentedText)
  have behind : PassesOver commentedText 28 47 := .gap 28 false (.atStart commentedText)
  refine ⟨runs.mem_extract, ?_, ?_⟩
  · obtain ⟨comment, isComment, begins, _, covers⟩ :=
      (each 3 (by decide)).2 0 13 inFront (by decide) (by decide)
    have lead : Text.leadOf commentedText 3 = 0 := by decide
    have stop : Marker.stopOf commentedText 3 = 12 := by decide
    rw [lead, stop] at covers
    rw [lead] at begins
    exact ⟨comment, isComment, by omega,
      covers.mpr (.of_unbroken comment.start (by decide) (by decide))⟩
  · obtain ⟨comment, isComment, begins, _, covers⟩ :=
      (each 35 (by decide)).2 28 47 behind (by decide) (by decide)
    have lead : Text.leadOf commentedText 35 = 33 := by decide
    have stop : Marker.stopOf commentedText 35 = 42 := by decide
    rw [lead, stop] at covers
    rw [lead] at begins
    exact ⟨comment, isComment, by omega,
      covers.mpr (.of_unbroken comment.start (by decide) (by decide))⟩

/-- The parts of the parts of the items of a script, such as the values that variables are declared
with. -/
def innerParts (script : Script.Module) : List Script.Node :=
  script.items.flatMap fun item => item.parts.flatMap (·.parts)

/-- The markers of this text stand in two template literals, on lines that begin as comments do. -/
def templateText : List Char :=
  "const page = `\n// [START a]\n`;\nfunction f() {}\nf();\nconst end = `\n// [END a]\n`;\n".toList

/-- **A region may run between markers that are the text of template literals.** -/
theorem extract_templateText :
    ∃ script, Source.parse templateText "a.js" = .ok script ∧
      ∃ region ∈ extract templateText, region.RunsBetween templateText 18 69 ∧
        (∃ node ∈ innerParts script, node.label = .template ["\n// [START a]\n"] ∧
          node.span.start ≤ 18 ∧ Marker.stopOf templateText 18 ≤ node.span.stop) ∧
        ∃ node ∈ innerParts script, node.label = .template ["\n// [END a]\n"] ∧
          node.span.start ≤ 69 ∧ Marker.stopOf templateText 69 ≤ node.span.stop := by
  obtain ⟨script, parsed, inTemplates⟩ :
      ∃ script, Source.parse templateText "a.js" = .ok script ∧
        (∃ node ∈ innerParts script, node.label = .template ["\n// [START a]\n"] ∧
          node.span.start ≤ 18 ∧ Marker.stopOf templateText 18 ≤ node.span.stop) ∧
        ∃ node ∈ innerParts script, node.label = .template ["\n// [END a]\n"] ∧
          node.span.start ≤ 69 ∧ Marker.stopOf templateText 69 ≤ node.span.stop :=
    Source.exists_parse (by decide +kernel)
  have runs : RunsBetween ⟨"a", .ofNat 2, .ofNat 7⟩ templateText 18 69 :=
    ⟨2, 7, ⟨by decide, by decide, by decide, by decide⟩, rfl, rfl,
      ⟨by decide, ['a'], templateText.drop 27, by decide, by decide, by decide, by decide⟩,
      ⟨by decide, ['a'], templateText.drop 76, by decide, by decide, by decide, by decide⟩⟩
  exact ⟨script, parsed, _, runs.mem_extract, runs, inTemplates⟩

end Region

end SampleMethods
