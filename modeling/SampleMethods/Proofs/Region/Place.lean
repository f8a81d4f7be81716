import SampleMethods.Proofs.Region.Marker
import SampleMethods.Proofs.Region.Pairing
import SampleMethods.Proofs.Text.Position
import SampleMethods.Proofs.Text.Search

/-!
# Where the markers of regions stand

A marker stands at a position of the text, on the line that its region shows. Every
region of a text runs from the place of a start marker to that of a finish marker
(`exists_runsBetween`). Where no carriage return stands alone, the lines of a region
are the lines of these places, counted as positions in a program are
(`RunsBetween.lines_eq`).
-/

set_option autoImplicit false

namespace SampleMethods

open Marker (Edge)

/-- On the line with the number, as line feeds count it, the marker of an edge with a tag begins
at the position. The tag may have blanks around it in the brackets. -/
structure Marker.StandsAt (text : List Char) (edge : Edge) (tag : String) (number position : ℕ) :
    Prop where
  onLine : (text.take position).count '\n' + 1 = number
  written : ∃ padded behind, text.drop position = edge.opening ++ padded ++ ']' :: behind ∧
    ']' ∉ padded ∧ '\n' ∉ padded ∧ Text.trim padded = tag.toList

namespace Region

/-! ## Places of markers -/

/-- A line that marks a tag has the tag behind the opening, in front of a closing bracket. -/
theorem exists_of_tag? {opening line tag : List Char}
    (marked : Marker.tag? opening line = some tag) :
    ∃ front padded behind, line = front ++ (opening ++ padded ++ ']' :: behind) ∧ ']' ∉ padded ∧
      Text.trim padded = tag := by
  obtain ⟨parts, spell⟩ := Marker.tag?_eq_some_iff_spell.mp marked
  refine ⟨parts.blanks ++ parts.front, parts.padded, parts.behind, ?_, spell.noBracket,
    (Text.trim_eq_iff spell.nonempty spell.oneWord).mpr spell.trimmed⟩
  rw [spell.line_eq, Marker.Parts.comment]
  simp only [List.append_assoc]

theorem tag?_of_edgeOf? {tag : String} {line : List Char} {edge : Edge}
    (isEdge : edgeOf? tag line = some edge) :
    Marker.tag? edge.opening line = some tag.toList := by
  unfold edgeOf? at isEdge
  split at isEdge
  · rename_i started _ isStart
    split at isEdge
    · rename_i same
      cases isEdge
      rw [isStart, same]
    · cases isEdge
  · rename_i finished _ isFinish
    split at isEdge
    · rename_i same
      cases isEdge
      rw [isFinish, same]
    · cases isEdge
  · cases isEdge

/-- **Where a text is marked for a tag, a marker with the tag stands.** -/
theorem exists_standsAt {text : List Char} {tag : String} {number : ℕ} {edge : Edge}
    (marked : markAt (marks tag text) number = some edge) :
    ∃ position, Marker.StandsAt text edge tag number position := by
  obtain ⟨index, line, rfl, isLine, isEdge⟩ := markAt_marks.mp marked
  obtain ⟨before, after, rfl, cut⟩ := Text.exists_of_splitLines_getElem? isLine
  obtain ⟨front, padded, behind, rfl, noBracket, isTag⟩ := exists_of_tag? (tag?_of_edgeOf? isEdge)
  have noFeed := cut.noFeed
  simp only [List.mem_append, List.mem_cons, not_or] at noFeed
  have textEq : before ++ (front ++ (edge.opening ++ padded ++ ']' :: behind)) ++ after =
      (before ++ front) ++ (edge.opening ++ padded ++ ']' :: (behind ++ after)) := by
    simp only [List.append_assoc, List.cons_append]
  refine ⟨(before ++ front).length, ?_, padded, behind ++ after, ?_, noBracket, noFeed.2.1.2, isTag⟩
  · rw [textEq, List.take_left, List.count_append, cut.feeds,
      List.count_eq_zero_of_not_mem noFeed.1]
  · rw [textEq, List.drop_left]

/-! ## Places of regions -/

/-- The region runs from the start marker at the first position to the finish marker at the last
one, which are on lines that are paired. -/
def RunsBetween (region : Region) (text : List Char) (first last : ℕ) : Prop :=
  ∃ firstNumber lastNumber, IsPair (marks region.tag text) firstNumber lastNumber ∧
    region.startLine = .ofNat firstNumber ∧ region.endLine = .ofNat lastNumber ∧
    Marker.StandsAt text .start region.tag firstNumber first ∧
    Marker.StandsAt text .finish region.tag lastNumber last

theorem exists_runsBetween {text : List Char} {region : Region} (isRegion : region ∈ extract text) :
    ∃ first last, region.RunsBetween text first last := by
  obtain ⟨firstNumber, lastNumber, isPair, startEq, endEq⟩ := mem_extract_iff.mp isRegion
  obtain ⟨first, isFirst⟩ := exists_standsAt isPair.start
  obtain ⟨last, isLast⟩ := exists_standsAt isPair.finish
  exact ⟨first, last, firstNumber, lastNumber, isPair, startEq, endEq, isFirst, isLast⟩

theorem RunsBetween.mem_extract {text : List Char} {region : Region} {first last : ℕ}
    (runs : region.RunsBetween text first last) : region ∈ extract text := by
  obtain ⟨firstNumber, lastNumber, isPair, startEq, endEq, _⟩ := runs
  exact mem_extract_iff.mpr ⟨firstNumber, lastNumber, isPair, startEq, endEq⟩

theorem RunsBetween.lines_eq {text : List Char} {region : Region} {first last : ℕ}
    (runs : region.RunsBetween text first last) (noLone : Text.NoLoneReturn text) :
    region.startLine = .ofPosition text first ∧ region.endLine = .ofPosition text last := by
  obtain ⟨_, _, _, startEq, endEq, ⟨rfl, _⟩, ⟨rfl, _⟩⟩ := runs
  rw [← Text.lineAt_eq_count noLone] at startEq endEq
  exact ⟨startEq, endEq⟩

/-- A region never shows a line further down than that of its finish marker. -/
theorem RunsBetween.endLine_le {text : List Char} {region : Region} {first last : ℕ}
    (runs : region.RunsBetween text first last) :
    region.endLine.toNat ≤ (LineNumber.ofPosition text last).toNat := by
  obtain ⟨_, _, _, _, endEq, _, ⟨rfl, _⟩⟩ := runs
  have counted := Text.count_lt_lineAt text last
  rw [endEq, LineNumber.ofPosition, LineNumber.toNat_ofNat_eq_min, LineNumber.toNat_ofNat_eq_min]
  omega

end Region

end SampleMethods
