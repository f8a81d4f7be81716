import Mathlib.Data.List.Infix
import SampleMethods.Region.Marker

/-!
# Balanced rows of edges

A row of region edges is balanced when every finish in it has a start before it
and every start a finish behind it: no front of the row has more finishes than
starts, and the whole row has as many of the ones as of the others.

Both properties are followed along a row that grows at its end, because that is
how lines are read.
-/

set_option autoImplicit false

namespace SampleMethods.Region

open Marker (Edge)

/-- No front of the row has more finishes than starts. -/
def NeverBelow (edges : List Edge) : Prop :=
  ∀ front, front <+: edges → front.count .finish ≤ front.count .start

/-- The starts and finishes of the row belong together. -/
def IsBalanced (edges : List Edge) : Prop :=
  NeverBelow edges ∧ edges.count .start = edges.count .finish

instance (edges : List Edge) : Decidable (NeverBelow edges) :=
  decidable_of_iff (∀ front ∈ edges.inits, front.count .finish ≤ front.count .start) <|
    forall_congr' fun front => imp_congr_left (List.mem_inits front edges)

instance (edges : List Edge) : Decidable (IsBalanced edges) :=
  inferInstanceAs (Decidable (_ ∧ _))

theorem neverBelow_nil : NeverBelow [] := by
  intro front isFront
  rw [List.prefix_nil.mp isFront]
  exact Nat.le_refl _

theorem NeverBelow.count_le {edges : List Edge} (above : NeverBelow edges) :
    edges.count .finish ≤ edges.count .start :=
  above edges (List.prefix_refl edges)

/-- A row with one more edge has one more front: itself. -/
theorem neverBelow_concat {edges : List Edge} {edge : Edge} :
    NeverBelow (edges ++ [edge]) ↔
      NeverBelow edges ∧ (edges ++ [edge]).count .finish ≤ (edges ++ [edge]).count .start := by
  constructor
  · intro above
    exact ⟨fun front isFront => above front (isFront.trans (List.prefix_append _ _)),
      above.count_le⟩
  · rintro ⟨above, atEnd⟩ front isFront
    rcases List.prefix_concat_iff.mp isFront with rfl | isFront
    · exact atEnd
    · exact above front isFront

theorem neverBelow_concat_start {edges : List Edge} :
    NeverBelow (edges ++ [.start]) ↔ NeverBelow edges := by
  rw [neverBelow_concat]
  refine and_iff_left_of_imp fun above => ?_
  have atEnd := above.count_le
  have starts : (edges ++ [Edge.start]).count .start = edges.count .start + 1 := by simp
  have finishes : (edges ++ [Edge.start]).count .finish = edges.count .finish := by simp
  omega

theorem neverBelow_concat_finish {edges : List Edge} :
    NeverBelow (edges ++ [.finish]) ↔
      NeverBelow edges ∧ edges.count .finish < edges.count .start := by
  rw [neverBelow_concat]
  refine and_congr_right fun _ => ?_
  have starts : (edges ++ [Edge.finish]).count .start = edges.count .start := by simp
  have finishes : (edges ++ [Edge.finish]).count .finish = edges.count .finish + 1 := by simp
  omega

end SampleMethods.Region
