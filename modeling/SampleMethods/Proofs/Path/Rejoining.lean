import SampleMethods.Proofs.Path.Prefix

/-!
# Paths put together again

A path is put behind another one by its text, and taken from a base by its steps. The two
undo each other: what is left of a path behind a base has the components that the base
lacks, and joined to the base it is the path again, however both of them are spelled
(`isLeftBehind_of_stripPrefix?`).
-/

set_option autoImplicit false

namespace SampleMethods.Path

open Text (Bytes point slash)

variable {path base left : Path}

/-! ## Without silent steps -/

theorem componentsOf_dropWhile (steps : List Step) :
    componentsOf (steps.dropWhile (!·.counts)) = componentsOf steps := by
  induction steps with
  | nil => rfl
  | cons step steps ih =>
      cases counts : step.counts with
      | true => rw [List.dropWhile_cons_of_neg (by simp [counts])]
      | false =>
          rw [List.dropWhile_cons_of_pos (by simp [counts]), ih,
            componentsOf_cons_of_silent counts]

theorem componentsOf_dropSilentEnd (steps : List Step) :
    componentsOf (dropSilentEnd steps) = componentsOf steps := by
  obtain ⟨silent, isSteps, silentEnd⟩ := exists_silentEnd steps
  conv_rhs => rw [isSteps, componentsOf_append, componentsOf_of_silent silentEnd, List.append_nil]

/-- Without the silent steps at its end a path has the same components. -/
theorem components_ofSteps_dropSilentEnd (path : Path) :
    (ofSteps path.isAbsolute (dropSilentEnd path.steps)).components = path.components := by
  obtain ⟨silent, isSteps, _⟩ := exists_silentEnd path.steps
  have sameComponents := componentsOf_dropSilentEnd path.steps
  by_cases nonempty : dropSilentEnd path.steps = []
  · rw [nonempty] at sameComponents ⊢
    rw [components_eq path, ← sameComponents]
    cases path.isAbsolute <;> rfl
  · obtain ⟨sameStart, sameSteps⟩ := steps_ofSteps_front nonempty isSteps
    rw [components_eq, sameStart, sameSteps, sameComponents, components_eq]

/-! ## What is left behind a base -/

/-- The path starts neither at the root nor with `.`. -/
def StartsInside (path : Path) : Prop :=
  path.isAbsolute = false ∧ path.components.head? ≠ some .here

theorem Step.IsInner.text_ne {step : Step} (inner : step.IsInner) (counts : step.counts = true) :
    step.text ≠ [] ∧ step.text ≠ [point] := by
  rw [← inner.2] at counts
  simpa [Step.behindSlash] using counts

theorem Step.IsInner.component_ne_here {step : Step} (inner : step.IsInner)
    (counts : step.counts = true) : step.component ≠ .here := by
  intro isHere
  rw [Step.component] at isHere
  split_ifs at isHere with here
  exact (inner.text_ne counts).2 (beq_iff_eq.mp here)

/-- The steps that are left begin with one that counts, if any are left. -/
theorem counts_of_dropSilentEnd_dropWhile {steps others : List Step} {first : Step}
    (kept : dropSilentEnd (steps.dropWhile (!·.counts)) = first :: others) :
    first.counts = true ∧ ∀ step ∈ first :: others, step ∈ steps := by
  obtain ⟨silent, isKept, _⟩ := exists_silentEnd (steps.dropWhile (!·.counts))
  rw [kept] at isKept
  constructor
  · have atHead := List.head?_dropWhile_not (!·.counts) steps
    rw [isKept] at atHead
    simpa using atHead
  · intro step member
    have isStep : step ∈ steps.dropWhile (!·.counts) := isKept ▸ List.mem_append_left silent member
    exact (List.dropWhile_suffix _).subset isStep

/-- Steps between slashes, taken as a path, have the same components. -/
theorem components_leftOf {steps : List Step} (inner : ∀ step ∈ steps, step.IsInner) :
    (leftOf steps).StartsInside ∧ (leftOf steps).components = componentsOf steps := by
  have sameComponents :
      componentsOf (dropSilentEnd (steps.dropWhile (!·.counts))) = componentsOf steps := by
    rw [componentsOf_dropSilentEnd, componentsOf_dropWhile]
  cases kept : dropSilentEnd (steps.dropWhile (!·.counts)) with
  | nil =>
      rw [kept] at sameComponents
      rw [leftOf, kept, ← sameComponents]
      exact ⟨⟨rfl, nofun⟩, rfl⟩
  | cons first others =>
      obtain ⟨counts, areSteps⟩ := counts_of_dropSilentEnd_dropWhile kept
      obtain ⟨innerFirst, innerOthers⟩ :=
        List.forall_mem_cons.mp fun step member => inner step (areSteps step member)
      obtain ⟨relative, sameSteps⟩ :=
        steps_ofSteps_cons (innerFirst.text_ne counts).1 innerFirst.1 counts innerOthers
      have isComponents : (leftOf steps).components = componentsOf (first :: others) := by
        rw [leftOf, kept, components_eq, relative, sameSteps]
        rfl
      refine ⟨⟨by rw [leftOf, kept, relative], ?_⟩, by rw [isComponents, ← kept, sameComponents]⟩
      rw [isComponents, componentsOf_cons_of_counts counts, List.head?_cons]
      exact fun isHere => innerFirst.component_ne_here counts (Option.some.inj isHere)

theorem dropComponents_suffix {components : List Component} {steps rest : List Step}
    (isRest : dropComponents components steps = some rest) : rest <:+ steps := by
  fun_induction dropComponents components steps with
  | case1 steps =>
      cases isRest
      exact List.suffix_rfl
  | case2 => cases isRest
  | case3 component components step steps silent ih =>
      exact (ih isRest).trans (List.suffix_cons step steps)
  | case4 component components step steps counts same ih =>
      exact (ih isRest).trans (List.suffix_cons step steps)
  | case5 => cases isRest

/-- Behind at least one component there is no first step. -/
theorem dropComponents_suffix_tail {components : List Component} {steps rest : List Step}
    (nonempty : components ≠ []) (isRest : dropComponents components steps = some rest) :
    rest <:+ steps.tail := by
  obtain ⟨component, components, rfl⟩ := List.exists_cons_of_ne_nil nonempty
  cases steps with
  | nil => cases isRest
  | cons step steps =>
      rw [dropComponents] at isRest
      split_ifs at isRest
      · exact dropComponents_suffix isRest
      · exact dropComponents_suffix isRest

/-- What a base with components leaves of the steps stands behind slashes. -/
theorem isInner_of_dropComponents {rest : List Step} (nonempty : base.components ≠ [])
    (same : base.isAbsolute = path.isAbsolute)
    (isRest : dropComponents (componentsOf base.steps) path.steps = some rest) :
    ∀ step ∈ rest, step.IsInner := by
  intro step member
  refine isInner_of_mem_steps path ?_
  cases absolute : path.isAbsolute with
  | true =>
      rw [if_pos rfl]
      exact (dropComponents_suffix isRest).subset member
  | false =>
      have someComponent : componentsOf base.steps ≠ [] := by
        rwa [components_eq, same, absolute] at nonempty
      exact (dropComponents_suffix_tail someComponent isRest).subset member

/-! ## Joining -/

/-- Behind the empty path every path is as it is. -/
theorem empty_join (path : Path) : (⟨[]⟩ : Path).join path = path := by
  rw [join]
  split_ifs
  · rfl
  · rfl
  · exact absurd rfl ‹_›

/-- The components of what stands behind a slash. -/
def componentsBehind (text : Bytes) : List Component :=
  componentsOf ((Text.cutAt slash text).map Step.behindSlash)

theorem componentsBehind_of_startsInside (inside : path.StartsInside) :
    componentsBehind path.text = path.components := by
  obtain ⟨relative, notHere⟩ := inside
  obtain ⟨first, others, isCut⟩ := List.exists_cons_of_ne_nil (Text.cutAt_ne_nil slash path.text)
  rw [componentsBehind, isCut, List.map_cons]
  rw [components_eq, relative, steps_of_relative relative isCut] at notHere ⊢
  have sameFirst : Step.behindSlash first = ⟨first, !first.isEmpty⟩ := by
    by_cases here : first = [point]
    · subst here
      exact absurd rfl notHere
    · simp [Step.behindSlash, here]
  rw [sameFirst]
  rfl

/-- **What stands behind a slash adds its components to those in front of it.** -/
theorem components_append_slash (front behind : Bytes) :
    (⟨front ++ slash :: behind⟩ : Path).components =
      (⟨front ++ [slash]⟩ : Path).components ++ componentsBehind behind := by
  have isStem : (⟨front ++ [slash]⟩ : Path).stem = front ++ [slash] := by simp [stem]
  have sameStart : (⟨front ++ slash :: behind⟩ : Path).isAbsolute =
      (⟨front ++ [slash]⟩ : Path).isAbsolute := by
    cases front <;> rfl
  rw [components_eq, components_eq, steps_behind_stem isStem behind, componentsOf_append,
    componentsOf_frontSteps, sameStart, List.append_assoc]
  rfl

/-- A slash at the end makes no difference. -/
theorem components_append_lastSlash {front : Bytes} (nonempty : front ≠ []) :
    (⟨front ++ [slash]⟩ : Path).components = (⟨front⟩ : Path).components := by
  obtain ⟨first, rest, rfl⟩ := List.exists_cons_of_ne_nil nonempty
  rw [components_eq, components_eq, steps_append_slash nonempty, componentsOf_append]
  exact congrArg _ (List.append_nil _)

/-- **What stands behind a path adds its components to those of the path.** -/
theorem components_behind_stem (hasText : base.text ≠ []) (behind : Bytes) :
    (⟨base.stem ++ behind⟩ : Path).components = base.components ++ componentsBehind behind := by
  rcases stem_cases base with ⟨noText, _⟩ | ⟨front, isStem, isText | ⟨isText, frontNonempty⟩⟩
  · exact absurd noText hasText
  · have isBase : base = ⟨front ++ [slash]⟩ := congrArg Path.mk isText
    rw [isStem, List.append_assoc, List.singleton_append, components_append_slash, ← isBase]
  · have isBase : base = ⟨front⟩ := congrArg Path.mk isText
    rw [isStem, List.append_assoc, List.singleton_append, components_append_slash,
      components_append_lastSlash frontNonempty, ← isBase]

/-- **A path that starts inside adds its components to those of the path that it is joined to.** -/
theorem components_join (inside : path.StartsInside) (base : Path) :
    (base.join path).components = base.components ++ path.components := by
  rcases base.empty_or_hasText with rfl | hasText
  · rw [empty_join]
    rfl
  · rw [join_of_relative inside.1, components_behind_stem hasText,
      componentsBehind_of_startsInside inside]

/-! ## Putting paths together again -/

/-- What is left of a path behind a base: it has the components that the base lacks, and taken
from the base it names the path again. -/
structure IsLeftBehind (path base left : Path) : Prop where
  components : path.components = base.components ++ left.components
  rejoins : (base.join left).components = path.components

/-- The empty path is a base of every path, and leaves it as it is, but for its end. -/
theorem stripPrefix?_empty (path : Path) :
    path.stripPrefix? ⟨[]⟩ = some (ofSteps path.isAbsolute (dropSilentEnd path.steps)) := by
  have noComponents : (⟨[]⟩ : Path).components = [] := rfl
  have relative : (⟨[]⟩ : Path).isAbsolute = false := rfl
  rw [stripPrefix?, noComponents, relative]
  cases path.isAbsolute with
  | true => rfl
  | false => simp [dropComponents]

/-- What is left behind a base that is not empty starts inside. -/
theorem startsInside_of_stripPrefix? (hasText : base.text ≠ [])
    (isLeft : path.stripPrefix? base = some left) :
    left.StartsInside ∧ path.components = base.components ++ left.components := by
  have nonempty := components_ne_nil hasText
  have liesUnder : path.LiesUnder base := stripPrefix?_isSome_iff.mp (by simp [isLeft])
  have same := isAbsolute_eq_of_liesUnder nonempty liesUnder
  rw [stripPrefix?_eq nonempty same, Option.map_eq_some_iff] at isLeft
  obtain ⟨rest, isRest, rfl⟩ := isLeft
  obtain ⟨inside, isComponents⟩ :=
    components_leftOf (isInner_of_dropComponents nonempty same isRest)
  refine ⟨inside, ?_⟩
  calc path.components
    _ = (if path.isAbsolute then [.root] else []) ++ componentsOf path.steps := components_eq path
    _ = (if base.isAbsolute then [.root] else []) ++
          (componentsOf base.steps ++ componentsOf rest) := by
        rw [same, componentsOf_of_dropComponents isRest]
    _ = base.components ++ (leftOf rest).components := by
        rw [isComponents, components_eq base, List.append_assoc]

/-- **Taking a path from a base and joining it to the base undo each other.** -/
theorem isLeftBehind_of_stripPrefix? (isLeft : path.stripPrefix? base = some left) :
    path.IsLeftBehind base left := by
  rcases base.empty_or_hasText with rfl | hasText
  · rw [stripPrefix?_empty, Option.some.injEq] at isLeft
    have sameComponents : left.components = path.components := by
      rw [← isLeft, components_ofSteps_dropSilentEnd]
    exact ⟨sameComponents.symm, by rw [empty_join, sameComponents]⟩
  · obtain ⟨inside, parts⟩ := startsInside_of_stripPrefix? hasText isLeft
    exact ⟨parts, by rw [components_join inside, parts]⟩

end SampleMethods.Path
