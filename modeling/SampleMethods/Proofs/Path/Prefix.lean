import Mathlib.Data.List.Infix
import SampleMethods.Proofs.Path.Parent

/-!
# Paths in front of paths

A path can be taken from a base when the components of the base come first in it
(`stripPrefix?_isSome_iff`). What is left is what the components of the base leave of
its steps (`stripPrefix?_eq`).
-/

set_option autoImplicit false

namespace SampleMethods.Path

variable {path base : Path}

/-! ## Steps behind components -/

theorem componentsOf_of_dropComponents {components : List Component} {steps rest : List Step}
    (isRest : dropComponents components steps = some rest) :
    componentsOf steps = components ++ componentsOf rest := by
  fun_induction dropComponents components steps with
  | case1 steps =>
      cases isRest
      rfl
  | case2 => cases isRest
  | case3 component components step steps silent ih =>
      rw [componentsOf_cons_of_silent (by simpa using silent)]
      exact ih isRest
  | case4 component components step steps counts same ih =>
      rw [componentsOf_cons_of_counts (by simpa using counts), ih isRest, beq_iff_eq.mp same]
      rfl
  | case5 => cases isRest

theorem dropComponents_isSome_iff {components : List Component} {steps : List Step} :
    (dropComponents components steps).isSome = true ↔ components <+: componentsOf steps := by
  constructor
  · intro isSome
    obtain ⟨rest, isRest⟩ := Option.isSome_iff_exists.mp isSome
    exact ⟨componentsOf rest, (componentsOf_of_dropComponents isRest).symm⟩
  · intro isFront
    fun_induction dropComponents components steps with
    | case1 steps => rfl
    | case2 => simp [componentsOf] at isFront
    | case3 component components step steps silent ih =>
        rw [componentsOf_cons_of_silent (by simpa using silent)] at isFront
        exact ih isFront
    | case4 component components step steps counts same ih =>
        rw [componentsOf_cons_of_counts (by simpa using counts)] at isFront
        exact ih (List.cons_prefix_cons.mp isFront).2
    | case5 component components step steps counts differs =>
        rw [componentsOf_cons_of_counts (by simpa using counts)] at isFront
        exact absurd (beq_iff_eq.mpr (List.cons_prefix_cons.mp isFront).1.symm) differs

theorem dropComponents_append {components : List Component} {steps rest : List Step}
    (isRest : dropComponents components steps = some rest) (more : List Step) :
    dropComponents components (steps ++ more) = some (rest ++ more) := by
  fun_induction dropComponents components steps with
  | case1 steps =>
      cases isRest
      simp [dropComponents]
  | case2 => cases isRest
  | case3 component components step steps silent ih =>
      rw [List.cons_append, dropComponents, if_pos silent]
      exact ih isRest
  | case4 component components step steps counts same ih =>
      rw [List.cons_append, dropComponents, if_neg counts, if_pos same]
      exact ih isRest
  | case5 => cases isRest

/-- The components of the first steps are dropped with these steps. -/
theorem dropComponents_of_front {components : List Component} (nonempty : components ≠ [])
    (front behind : List Step) :
    dropComponents (componentsOf front ++ components) (front ++ behind) =
      dropComponents components behind := by
  induction front with
  | nil => rfl
  | cons step front ih =>
      cases counts : step.counts with
      | true =>
          rw [componentsOf_cons_of_counts counts, List.cons_append, List.cons_append,
            dropComponents]
          simp [counts, ih]
      | false =>
          rw [componentsOf_cons_of_silent counts, List.cons_append]
          obtain ⟨component, others, isComponents⟩ := List.exists_cons_of_ne_nil
            (List.append_ne_nil_of_right_ne_nil (componentsOf front) nonempty)
          rw [isComponents] at ih ⊢
          rw [dropComponents, if_pos (by simp [counts]), ih]

/-- Behind the components of all steps only silent steps are left. -/
theorem exists_dropComponents_self (steps : List Step) :
    ∃ silent, dropComponents (componentsOf steps) steps = some silent ∧
      ∀ step ∈ silent, step.counts = false := by
  induction steps with
  | nil => exact ⟨[], rfl, fun _ member => nomatch member⟩
  | cons step steps ih =>
      obtain ⟨silent, isRest, silentRest⟩ := ih
      cases counts : step.counts with
      | true =>
          refine ⟨silent, ?_, silentRest⟩
          rw [componentsOf_cons_of_counts counts, dropComponents]
          simp [counts, isRest]
      | false =>
          rw [componentsOf_cons_of_silent counts]
          cases isComponents : componentsOf steps with
          | nil =>
              rw [isComponents, dropComponents] at isRest
              cases isRest
              exact ⟨step :: steps, rfl, List.forall_mem_cons.mpr ⟨counts, silentRest⟩⟩
          | cons component components =>
              rw [isComponents] at isRest
              refine ⟨silent, ?_, silentRest⟩
              rw [dropComponents, if_pos (by simp [counts]), isRest]

/-! ## Paths under a base -/

theorem filter_root_components (path : Path) :
    path.components.filter (· != .root) = componentsOf path.steps := by
  have keepsAll : (componentsOf path.steps).filter (· != .root) = componentsOf path.steps := by
    rw [List.filter_eq_self]
    intro component member
    exact bne_iff_ne.mpr fun isRoot => root_not_mem_componentsOf _ (isRoot ▸ member)
  rw [components_eq, List.filter_append, keepsAll]
  cases path.isAbsolute <;> rfl

theorem isAbsolute_iff_head?_components :
    path.isAbsolute = true ↔ path.components.head? = some .root := by
  rw [components_eq]
  cases path.isAbsolute with
  | true => simp
  | false =>
      constructor
      · rintro ⟨⟩
      · intro isRoot
        exact absurd (List.mem_of_head? isRoot) (root_not_mem_componentsOf path.steps)

/-- The path is the base, or leads to something below it: the components of the base come first. -/
def LiesUnder (path base : Path) : Prop :=
  base.components <+: path.components

instance (path base : Path) : Decidable (path.LiesUnder base) :=
  inferInstanceAs (Decidable (base.components <+: path.components))

/-- **A path can be taken from a base when the components of the base come first in it.** -/
theorem stripPrefix?_isSome_iff :
    (path.stripPrefix? base).isSome = true ↔ path.LiesUnder base := by
  rw [stripPrefix?, filter_root_components, LiesUnder]
  by_cases same : base.isAbsolute = path.isAbsolute
  · rw [if_neg (by simp [same]), Option.isSome_map, dropComponents_isSome_iff, components_eq,
      components_eq, same, List.prefix_append_right_inj]
  · rw [if_pos (by simpa using same)]
    cases isComponents : base.components with
    | nil => simp
    | cons first rest =>
        have noPrefix : ¬first :: rest <+: path.components := by
          intro isFront
          have sameHead : base.components.head? = path.components.head? := by
            obtain ⟨behind, isPath⟩ := isFront
            rw [isComponents, ← isPath]
            rfl
          refine same (Bool.eq_iff_iff.mpr ?_)
          rw [isAbsolute_iff_head?_components, isAbsolute_iff_head?_components, sameHead]
        simp [noPrefix]

theorem stripPrefix?_eq_none_iff :
    path.stripPrefix? base = none ↔ ¬path.LiesUnder base := by
  rw [← stripPrefix?_isSome_iff, Bool.not_eq_true, Option.isSome_eq_false_iff,
    Option.isNone_iff_eq_none]

/-! ## What is left behind a base -/

/-- The path that steps behind a base are. -/
def leftOf (steps : List Step) : Path :=
  ofSteps false (dropSilentEnd (steps.dropWhile (!·.counts)))

/-- What is left behind a base that has components is what its components leave of the steps. -/
theorem stripPrefix?_eq (nonempty : base.components ≠ [])
    (same : base.isAbsolute = path.isAbsolute) :
    path.stripPrefix? base =
      (dropComponents (componentsOf base.steps) path.steps).map leftOf := by
  have notEmpty : base.components.isEmpty = false := by simpa using nonempty
  rw [stripPrefix?, filter_root_components, if_neg (by simp [same])]
  simp only [notEmpty, Bool.false_eq_true, if_false]
  rfl

theorem isAbsolute_eq_of_liesUnder (nonempty : base.components ≠ [])
    (liesUnder : path.LiesUnder base) : base.isAbsolute = path.isAbsolute := by
  obtain ⟨behind, isPath⟩ := liesUnder
  refine Bool.eq_iff_iff.mpr ?_
  rw [isAbsolute_iff_head?_components, isAbsolute_iff_head?_components, ← isPath,
    List.head?_append_of_ne_nil _ nonempty]

end SampleMethods.Path
