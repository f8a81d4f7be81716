import SampleMethods.Proofs.Path.Steps

/-!
# Parents of paths

The first steps of a path, written as a path, are read as the same steps
(`steps_ofSteps_front`). The parent of a path lacks its last step that counts, and the
silent steps around that one (`exists_steps_of_parent?`). So it is written with less
text, ends with a step that counts (`exists_lastStep_of_parent?`), and from a path one
comes to the end of its parents.
-/

set_option autoImplicit false

namespace SampleMethods.Path

open Text (Bytes slash)

variable {path parent : Path}

/-! ## Writing steps -/

/-- A path is written with its steps. -/
theorem ofSteps_steps (path : Path) : ofSteps path.isAbsolute path.steps = path := by
  refine congrArg Path.mk ?_
  rw [steps_map_text, Text.join_cutAt]
  cases absolute : path.isAbsolute with
  | true => exact (text_of_isAbsolute absolute).symm
  | false => rfl

theorem text_ne_nil_of_counts {step : Step} (isStep : step ∈ path.steps)
    (counts : step.counts = true) : step.text ≠ [] := by
  rintro isEmpty
  rw [steps] at isStep
  cases isCut : Text.cutAt slash (if path.isAbsolute then path.text.tail else path.text) with
  | nil =>
      rw [isCut] at isStep
      cases isStep
  | cons first others =>
      rw [isCut] at isStep
      rcases List.mem_cons.mp isStep with rfl | behind
      · simp_all
      · obtain ⟨text, _, rfl⟩ := List.mem_map.mp behind
        simp_all

/-- The step is what stands behind a slash. -/
def Step.IsInner (step : Step) : Prop :=
  slash ∉ step.text ∧ Step.behindSlash step.text = step

theorem isInner_of_mem_map {text : Bytes} {step : Step}
    (member : step ∈ (Text.cutAt slash text).map Step.behindSlash) : step.IsInner := by
  obtain ⟨piece, isPiece, rfl⟩ := List.mem_map.mp member
  exact ⟨Text.not_mem_of_mem_cutAt isPiece, rfl⟩

section InnerSteps

variable {steps : List Step} (inner : ∀ step ∈ steps, step.IsInner)

include inner

theorem not_mem_of_isInner : ∀ text ∈ steps.map (·.text), slash ∉ text := by
  intro text member
  obtain ⟨step, isStep, rfl⟩ := List.mem_map.mp member
  exact (inner step isStep).1

theorem map_behindSlash_of_isInner :
    (steps.map (·.text)).map Step.behindSlash = steps :=
  calc (steps.map (·.text)).map Step.behindSlash
    _ = steps.map fun step => Step.behindSlash step.text := List.map_map
    _ = steps.map id := List.map_congr_left fun step member => (inner step member).2
    _ = steps := List.map_id steps

end InnerSteps

/-- The steps behind the first one stand behind slashes. In a path that starts at the root, the
first one does so, too. -/
theorem isInner_of_mem_steps (path : Path) {step : Step}
    (member : step ∈ if path.isAbsolute then path.steps else path.steps.tail) : step.IsInner := by
  cases absolute : path.isAbsolute with
  | true =>
      rw [absolute, if_pos rfl, steps_of_isAbsolute absolute] at member
      exact isInner_of_mem_map member
  | false =>
      obtain ⟨first, others, isCut⟩ :=
        List.exists_cons_of_ne_nil (Text.cutAt_ne_nil slash path.text)
      have isPart : step ∈ (Text.cutAt slash path.text).map Step.behindSlash := by
        rw [absolute, steps_of_relative absolute isCut] at member
        rw [isCut]
        exact List.mem_cons_of_mem _ member
      exact isInner_of_mem_map isPart

/-- The first steps of a path that starts at the root are those of the path written with them. -/
theorem steps_ofSteps (absolute : path.isAbsolute = true) {front behind : List Step}
    (nonempty : front ≠ []) (isSteps : path.steps = front ++ behind) :
    (ofSteps true front).steps = front := by
  have inner : ∀ step ∈ front, step.IsInner := by
    intro step member
    refine isInner_of_mem_steps path ?_
    rw [absolute, isSteps]
    exact List.mem_append_left _ member
  have isCut : Text.cutAt slash (ofSteps true front).text.tail = front.map (·.text) :=
    Text.cutAt_join (by simpa using nonempty) (not_mem_of_isInner inner)
  rw [steps_of_isAbsolute rfl, isCut, map_behindSlash_of_isInner inner]

/-- A first step with a text is read as what it was written with, and so are the steps behind it. -/
theorem steps_ofSteps_cons {first : Step} {others : List Step} (nonempty : first.text ≠ [])
    (noSlash : slash ∉ first.text) (counts : first.counts = true)
    (inner : ∀ step ∈ others, step.IsInner) :
    (ofSteps false (first :: others)).isAbsolute = false ∧
      (ofSteps false (first :: others)).steps = first :: others := by
  have isCut : Text.cutAt slash (ofSteps false (first :: others)).text =
      first.text :: others.map (·.text) :=
    Text.cutAt_join (List.cons_ne_nil _ _)
      (List.forall_mem_cons.mpr ⟨noSlash, not_mem_of_isInner inner⟩)
  have relative : (ofSteps false (first :: others)).isAbsolute = false := by
    by_contra absolute
    rw [Bool.not_eq_false] at absolute
    rw [text_of_isAbsolute absolute] at isCut
    exact nonempty (List.cons.inj isCut).1.symm
  refine ⟨relative, ?_⟩
  have counted : (!first.text.isEmpty) = first.counts := by simp [counts, nonempty]
  rw [steps_of_relative relative isCut, map_behindSlash_of_isInner inner, counted]

/-- Only the empty path starts with nothing and not with a slash. -/
theorem text_eq_nil_of_noFirst (relative : path.isAbsolute = false) {others : List Bytes}
    (isCut : Text.cutAt slash path.text = [] :: others) : path.text = [] := by
  cases isText : path.text with
  | nil => rfl
  | cons character rest =>
      have noSlash : character ≠ slash := by simpa [isAbsolute, isText] using relative
      obtain ⟨piece, pieces, startsSo⟩ := Text.exists_cutAt_cons noSlash rest
      rw [isText, startsSo] at isCut
      cases isCut

/-- **The first steps of a path are those of the path written with them.** -/
theorem steps_ofSteps_front {front behind : List Step} (nonempty : front ≠ [])
    (isSteps : path.steps = front ++ behind) :
    (ofSteps path.isAbsolute front).isAbsolute = path.isAbsolute ∧
      (ofSteps path.isAbsolute front).steps = front := by
  cases absolute : path.isAbsolute with
  | true => exact ⟨rfl, steps_ofSteps absolute nonempty isSteps⟩
  | false =>
      obtain ⟨step, others, rfl⟩ := List.exists_cons_of_ne_nil nonempty
      obtain ⟨first, pieces, isCut⟩ :=
        List.exists_cons_of_ne_nil (Text.cutAt_ne_nil slash path.text)
      have split := isSteps
      rw [steps_of_relative absolute isCut, List.cons_append, List.cons.injEq] at split
      obtain ⟨rfl, isOthers⟩ := split
      cases first with
      | nil =>
          rw [text_eq_nil_of_noFirst absolute isCut] at isCut
          cases isCut
          cases (List.append_eq_nil_iff.mp isOthers.symm).1
          exact ⟨rfl, rfl⟩
      | cons character rest =>
          have inner : ∀ step ∈ others, step.IsInner := by
            intro step member
            refine isInner_of_mem_steps path ?_
            rw [absolute, isSteps]
            exact List.mem_append_left _ member
          have noSlash : slash ∉ character :: rest :=
            Text.not_mem_of_mem_cutAt (isCut ▸ List.mem_cons_self)
          exact steps_ofSteps_cons (List.cons_ne_nil _ _) noSlash rfl inner

/-! ## Silent steps -/

theorem exists_silentEnd (steps : List Step) :
    ∃ silent, steps = dropSilentEnd steps ++ silent ∧ ∀ step ∈ silent, step.counts = false := by
  refine ⟨steps.rtakeWhile (!·.counts), List.rdropWhile_append_rtakeWhile.symm, ?_⟩
  intro step member
  simpa using List.mem_rtakeWhile_imp member

theorem dropSilentEnd_append_cons {front silent : List Step} {last : Step}
    (counts : last.counts = true) (silentEnd : ∀ step ∈ silent, step.counts = false) :
    dropSilentEnd (front ++ last :: silent) = front ++ [last] := by
  have isDropped : ∀ step ∈ silent.reverse, (!step.counts) = true := by
    intro step member
    simp [silentEnd step (List.mem_reverse.mp member)]
  rw [dropSilentEnd, List.reverse_append, List.reverse_cons, List.append_assoc,
    List.dropWhile_append_of_pos isDropped, List.singleton_append,
    List.dropWhile_cons_of_neg (by simp [counts])]
  simp

theorem dropSilentEnd_of_silent {steps : List Step} (silent : ∀ step ∈ steps, step.counts = false) :
    dropSilentEnd steps = [] := by
  have isDropped : steps.reverse.dropWhile (!·.counts) = [] := by
    refine List.dropWhile_eq_nil_iff.mpr ?_
    intro step member
    simp [silent step (List.mem_reverse.mp member)]
  rw [dropSilentEnd, isDropped, List.reverse_nil]

/-- No step counts, or there is a last one that does. -/
theorem silent_or_exists_last (steps : List Step) :
    (∀ step ∈ steps, step.counts = false) ∨
      ∃ front last silent, steps = front ++ last :: silent ∧ last.counts = true ∧
        ∀ step ∈ silent, step.counts = false := by
  induction steps with
  | nil => exact .inl fun _ member => nomatch member
  | cons first rest ih =>
      rcases ih with silent | ⟨front, last, silent, rfl, counts, silentEnd⟩
      · cases counts : first.counts with
        | true => exact .inr ⟨[], first, rest, rfl, counts, silent⟩
        | false => exact .inl (List.forall_mem_cons.mpr ⟨counts, silent⟩)
      · exact .inr ⟨first :: front, last, silent, rfl, counts, silentEnd⟩

/-! ## Parents -/

/-- The components up to the last step that counts. -/
theorem components_of_steps {front silent : List Step} {last : Step}
    (isSteps : path.steps = front ++ last :: silent) (counts : last.counts = true)
    (silentEnd : ∀ step ∈ silent, step.counts = false) :
    path.components =
      (if path.isAbsolute then [.root] else []) ++ componentsOf front ++ [last.component] := by
  rw [components_eq, isSteps, componentsOf_append, componentsOf_cons_of_counts counts,
    componentsOf_of_silent silentEnd, List.append_assoc]

/-- A path of which no step counts has no parent. -/
theorem parent?_of_silent (silent : ∀ step ∈ path.steps, step.counts = false) :
    path.parent? = none := by
  rw [parent?, components_eq, componentsOf_of_silent silent]
  cases path.isAbsolute <;> rfl

theorem parent?_of_steps {front silent : List Step} {last : Step}
    (isSteps : path.steps = front ++ last :: silent) (counts : last.counts = true)
    (silentEnd : ∀ step ∈ silent, step.counts = false) :
    path.parent? = some (ofSteps path.isAbsolute (dropSilentEnd front)) := by
  rw [parent?, components_of_steps isSteps counts silentEnd, List.getLast?_concat, isSteps,
    dropSilentEnd_append_cons counts silentEnd, List.dropLast_concat]
  cases isLast : last.component with
  | root => exact absurd isLast last.component_ne_root
  | here => rfl
  | up => rfl
  | name text => rfl

/-- **The parent of a path lacks its last step that counts.** -/
theorem exists_steps_of_parent? (isParent : path.parent? = some parent) :
    ∃ front between last behind, path.steps = front ++ (between ++ last :: behind) ∧
      last.counts = true ∧ (∀ step ∈ between, step.counts = false) ∧
      (∀ step ∈ behind, step.counts = false) ∧ parent = ofSteps path.isAbsolute front := by
  rcases silent_or_exists_last path.steps with
    silent | ⟨front, last, behind, isSteps, counts, silent⟩
  · cases (parent?_of_silent silent).symm.trans isParent
  · cases (parent?_of_steps isSteps counts silent).symm.trans isParent
    obtain ⟨between, isFront, betweenSilent⟩ := exists_silentEnd front
    refine ⟨dropSilentEnd front, between, last, behind, ?_, counts, betweenSilent, silent, rfl⟩
    rw [← List.append_assoc, ← isFront, isSteps]

/-- **A parent ends with a step that counts**, unless it is empty or the root. -/
theorem exists_lastStep_of_parent? (isParent : path.parent? = some parent)
    (hasText : parent.text ≠ []) (notRoot : parent.text ≠ [slash]) :
    ∃ front last, parent.steps = front ++ [last] ∧ last.counts = true := by
  rcases silent_or_exists_last path.steps with
    silent | ⟨front, last, behind, isSteps, counts, silent⟩
  · cases (parent?_of_silent silent).symm.trans isParent
  · cases (parent?_of_steps isSteps counts silent).symm.trans isParent
    rcases silent_or_exists_last front with
      silentFront | ⟨front, above, between, rfl, aboveCounts, betweenSilent⟩
    · rw [dropSilentEnd_of_silent silentFront] at hasText notRoot
      cases absolute : path.isAbsolute with
      | true => exact absurd (by rw [absolute]; rfl) notRoot
      | false => exact absurd (by rw [absolute]; rfl) hasText
    · rw [dropSilentEnd_append_cons aboveCounts betweenSilent]
      have isFront : path.steps = (front ++ [above]) ++ (between ++ last :: behind) := by
        simp [isSteps]
      exact ⟨front, above, (steps_ofSteps_front (by simp) isFront).2, aboveCounts⟩

/-- **What is written for a path begins with what is written for its parent**, and goes on. -/
theorem exists_text_of_parent? (isParent : path.parent? = some parent) :
    ∃ rest, rest ≠ [] ∧ path.text = parent.text ++ rest := by
  obtain ⟨front, between, last, behind, isSteps, counts, _, _, rfl⟩ :=
    exists_steps_of_parent? isParent
  have isText : path.text =
      (ofSteps path.isAbsolute (front ++ (between ++ last :: behind))).text := by
    rw [← isSteps, ofSteps_steps]
  have isLast : last ∈ between ++ last :: behind := by simp
  cases front with
  | nil =>
      refine ⟨Text.join [slash] ((between ++ last :: behind).map (·.text)), ?_, ?_⟩
      · have lastNonempty := text_ne_nil_of_counts (isSteps ▸ List.mem_append_right _ isLast) counts
        have lastText := List.length_pos_of_ne_nil lastNonempty
        have longer : last.text.length ≤
            (Text.join [slash] ((between ++ last :: behind).map (·.text))).length :=
          Text.length_le_length_join (List.mem_map_of_mem isLast)
        exact List.ne_nil_of_length_pos (by omega)
      · rw [isText]
        simp only [ofSteps, List.nil_append, List.map_nil, Text.join, List.append_nil]
  | cons first rest =>
      refine ⟨slash :: Text.join [slash] ((between ++ last :: behind).map (·.text)),
        List.cons_ne_nil _ _, ?_⟩
      rw [isText]
      simp only [ofSteps]
      rw [List.map_append, Text.join_append (by simp) (by simp)]
      simp only [List.append_assoc, List.singleton_append]

theorem text_prefix_of_parent? (isParent : path.parent? = some parent) :
    parent.text <+: path.text := by
  obtain ⟨rest, _, isText⟩ := exists_text_of_parent? isParent
  exact ⟨rest, isText.symm⟩

theorem length_parent?_lt (isParent : path.parent? = some parent) :
    parent.text.length < path.text.length := by
  obtain ⟨rest, nonempty, isText⟩ := exists_text_of_parent? isParent
  have isLonger := List.length_pos_of_ne_nil nonempty
  rw [isText, List.length_append]
  omega

/-- **The parent of a path that starts at the root lacks its last component.** -/
theorem components_of_parent? (absolute : path.isAbsolute = true)
    (isParent : path.parent? = some parent) :
    parent.isAbsolute = true ∧ ∃ last, path.components = parent.components ++ [last] := by
  obtain ⟨front, between, last, behind, isSteps, counts, betweenSilent, behindSilent, rfl⟩ :=
    exists_steps_of_parent? isParent
  rw [absolute]
  have parentAbsolute : (ofSteps true front).isAbsolute = true := rfl
  have parentComponents : (ofSteps true front).components = .root :: componentsOf front := by
    rw [components_eq, parentAbsolute, if_pos rfl, List.singleton_append]
    cases front with
    | nil => rfl
    | cons first rest => rw [steps_ofSteps absolute (List.cons_ne_nil first rest) isSteps]
  refine ⟨parentAbsolute, last.component, ?_⟩
  rw [parentComponents, components_eq, absolute, if_pos rfl, isSteps, componentsOf_append,
    componentsOf_append, componentsOf_of_silent betweenSilent, componentsOf_cons_of_counts counts,
    componentsOf_of_silent behindSilent]
  rfl

/-- A path that starts at the root and has no parent has no other component. -/
theorem components_of_parent?_eq_none (absolute : path.isAbsolute = true)
    (isNone : path.parent? = none) : path.components = [.root] := by
  rcases silent_or_exists_last path.steps with
    silent | ⟨front, last, behind, isSteps, counts, silent⟩
  · rw [components_eq, absolute, if_pos rfl, componentsOf_of_silent silent, List.append_nil]
  · cases (parent?_of_steps isSteps counts silent).symm.trans isNone

end SampleMethods.Path
