import Mathlib.Data.List.DropRight
import SampleMethods.Path

/-!
# Stems and extensions

A name is cut at its last point, unless that is its first character. So a name has an
extension exactly when it is a stem with something in it, a point, and the extension, in
which there is no further point (`splitName_eq_some_iff`).
-/

set_option autoImplicit false

namespace SampleMethods.Path

open Text (Bytes point)

/-- What stands behind the last point. -/
theorem takeWhile_reverse_of_point (stem : Bytes) {extension : Bytes}
    (noPoint : point ∉ extension) :
    ((stem ++ point :: extension).reverse.takeWhile (· != point)).reverse = extension := by
  have passes : ∀ character ∈ extension.reverse, (character != point) = true := by
    intro character member
    refine bne_iff_ne.mpr ?_
    rintro rfl
    exact noPoint (List.mem_reverse.mp member)
  rw [List.reverse_append, List.reverse_cons, List.append_assoc,
    List.takeWhile_append_of_pos passes, List.singleton_append,
    List.takeWhile_cons_of_neg (by simp), List.append_nil, List.reverse_reverse]

/-- A stem, a point and an extension are taken apart again. -/
theorem splitName_of_stem {stem extension : Bytes} (nonempty : stem ≠ [])
    (noPoint : point ∉ extension) :
    splitName (stem ++ point :: extension) = (stem, some extension) := by
  have isLength : (stem ++ point :: extension).length - extension.length - 1 = stem.length := by
    rw [List.length_append, List.length_cons]
    omega
  have isStem : (stem ++ point :: extension).take stem.length = stem := List.take_left
  simp only [splitName, takeWhile_reverse_of_point stem noPoint, isLength, isStem]
  simp [nonempty]

/-- A name with a point is cut there. -/
theorem exists_stem_of_mem {name : Bytes} (pointed : point ∈ name) :
    ∃ stem extension, name = stem ++ point :: extension ∧ point ∉ extension := by
  induction name with
  | nil => cases pointed
  | cons first rest ih =>
      by_cases inRest : point ∈ rest
      · obtain ⟨stem, extension, rfl, noPoint⟩ := ih inRest
        exact ⟨first :: stem, extension, rfl, noPoint⟩
      · rcases List.mem_cons.mp pointed with rfl | behind
        · exact ⟨[], rest, rfl, inRest⟩
        · exact absurd behind inRest

/-- A name without a point, or with its only point in front, is all stem. -/
theorem splitName_of_plain {name : Bytes}
    (plain : ∀ stem extension, name = stem ++ point :: extension → point ∉ extension → stem = []) :
    splitName name = (name, none) := by
  by_cases pointed : point ∈ name
  · obtain ⟨stem, extension, rfl, noPoint⟩ := exists_stem_of_mem pointed
    have isEmpty := plain stem extension rfl noPoint
    have extensionFound := takeWhile_reverse_of_point stem noPoint
    subst isEmpty
    simp only [splitName, extensionFound]
    simp
  · simp [splitName, pointed]

/-- **A name has an extension exactly when it is a stem, a point and the extension.** -/
theorem splitName_eq_some_iff {name stem extension : Bytes} :
    splitName name = (stem, some extension) ↔
      name = stem ++ point :: extension ∧ stem ≠ [] ∧ point ∉ extension := by
  constructor
  · intro found
    by_cases plain : ∀ stem extension, name = stem ++ point :: extension → point ∉ extension →
      stem = []
    · rw [splitName_of_plain plain] at found
      cases found
    · push Not at plain
      obtain ⟨otherStem, otherExtension, rfl, noPoint, nonempty⟩ := plain
      rw [splitName_of_stem nonempty noPoint] at found
      cases found
      exact ⟨rfl, nonempty, noPoint⟩
  · rintro ⟨rfl, nonempty, noPoint⟩
    exact splitName_of_stem nonempty noPoint

end SampleMethods.Path
