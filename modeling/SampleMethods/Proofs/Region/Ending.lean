import SampleMethods.Proofs.Region.Marker
import SampleMethods.Proofs.Text.Return
import SampleMethods.Region

/-!
# How lines end

A text whose lines end with a carriage return and a line feed has the regions that it has with
line feeds alone (`extract_withReturns`): a carriage return that is left at the end of a line is
blank, and so no part of a marker. And the lines that spans cover are the same, as long as the
text had no carriage return before (`endings_alike`).
-/

set_option autoImplicit false

namespace SampleMethods

theorem Marker.ofLine?_returned {line returned : List Char}
    (isReturned : Text.IsReturned line returned) :
    Marker.ofLine? returned = Marker.ofLine? line := by
  have ofLineAt : ∀ edge, ofLineAt? edge (line ++ ['\r']) = ofLineAt? edge line := by
    intro edge
    have absent : '\r' ∉ edge.opening := by cases edge <;> decide
    rw [ofLineAt?, tag?_concat (by decide) absent, ofLineAt?]
  rcases isReturned with rfl | rfl
  · rfl
  · rw [ofLine?, ofLine?, ofLineAt, ofLineAt]

namespace Region

/-- A scan sees of a line nothing but its marker. -/
theorem Scan.run_congr {lines others : List (List Char)}
    (same : List.Forall₂ (fun line other => Marker.ofLine? other = Marker.ofLine? line) lines others)
    (scan : Scan) (number : ℕ) : scan.run number others = scan.run number lines := by
  induction same generalizing scan number with
  | nil => rfl
  | cons same _ ih => rw [Scan.run, Scan.run, same, ih]

theorem scan_withReturns (text : List Char) : scan (Text.withReturns text) = scan text := by
  have same := (Text.splitLines_withReturns text).imp fun _ _ => Marker.ofLine?_returned
  exact Scan.run_congr same _ _

theorem extract_withReturns (text : List Char) :
    extract (Text.withReturns text) = extract text := by
  rw [extract, extract, scan_withReturns]

/-- **How lines end does not matter.** With carriage returns in front of its line feeds every text
has the same regions, and in a text without any carriage return all positions stay on their lines,
so that spans cover the same lines. -/
theorem endings_alike (text : List Char) :
    extract (Text.withReturns text) = extract text ∧
      ('\r' ∉ text →
        (∀ position place, Text.Corresponds text position place →
          LineNumber.ofPosition (Text.withReturns text) place =
            LineNumber.ofPosition text position) ∧
        ∀ span moved : Script.Span, Text.Corresponds text span.start moved.start →
          Text.Corresponds text span.stop moved.stop →
          Method.linesOf (Text.withReturns text) moved = Method.linesOf text span) := by
  refine ⟨extract_withReturns text, fun noReturn => ?_⟩
  have lines : ∀ position place, Text.Corresponds text position place →
      LineNumber.ofPosition (Text.withReturns text) place = LineNumber.ofPosition text position := by
    intro position place corresponds
    rw [LineNumber.ofPosition, Text.lineAt_withReturns noReturn corresponds, LineNumber.ofPosition]
  refine ⟨lines, fun span moved start stop => ?_⟩
  rw [Method.linesOf, lines _ _ start, lines _ _ stop, Method.linesOf]

/-- The function of this text is on the two lines behind its start marker. -/
def fedText : List Char :=
  "// [START a]\nfunction f() \x7b\n\x7d\n// [END a]\nf();\n".toList

theorem endings_alike_fedText :
    '\r' ∉ fedText ∧ extract (Text.withReturns fedText) = extract fedText ∧
      Text.Corresponds fedText 13 14 ∧ Text.Corresponds fedText 29 31 ∧
      Method.linesOf fedText ⟨13, 29⟩ = (.ofNat 2, .ofNat 3) ∧
      Method.linesOf (Text.withReturns fedText) ⟨14, 31⟩ = (.ofNat 2, .ofNat 3) := by
  have noReturn : '\r' ∉ fedText := by decide
  have start : Text.Corresponds fedText 13 14 := .inl (by decide)
  have stop : Text.Corresponds fedText 29 31 := .inl (by decide)
  have lines : Method.linesOf fedText ⟨13, 29⟩ = (.ofNat 2, .ofNat 3) := by decide
  obtain ⟨regions, stays⟩ := endings_alike fedText
  exact ⟨noReturn, regions, start, stop, lines,
    ((stays noReturn).2 ⟨13, 29⟩ ⟨14, 31⟩ start stop).trans lines⟩

end Region

end SampleMethods
