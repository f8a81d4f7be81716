import SampleMethods.Proofs.Path.Prefix

/-!
# Paths below paths

A row of names behind a path adds the same text, the same steps and the same
components to whatever path they are put behind (`exists_text_below`, `steps_below`,
`components_below`). So two paths that are spelled alike behind a base, or that both
have nothing to do with it, are still so with names behind them, and what is left of
them behind the base is the same (`SpelledAlike.stripPrefix?_below`).
-/

set_option autoImplicit false

namespace SampleMethods.Path

open Text (Bytes slash)

variable {path base first second : Path} {name : Bytes} {names : List Bytes}

/-! ## Rows of names behind paths -/

/-- The path with the names at its end, one after the other. -/
def below (path : Path) (names : List Bytes) : Path :=
  names.foldl child path

theorem below_cons (path : Path) (name : Bytes) (names : List Bytes) :
    path.below (name :: names) = (path.child name).below names := rfl

/-- The step that a name is. -/
def Step.ofName (name : Bytes) : Step :=
  ⟨name, true⟩

theorem components_below (path : Path) (areNames : ∀ name ∈ names, FileTree.isName name = true) :
    (path.below names).components = path.components ++ names.map .name := by
  induction names generalizing path with
  | nil => exact (List.append_nil _).symm
  | cons name names ih =>
      obtain ⟨isName, areNames⟩ := List.forall_mem_cons.mp areNames
      rw [below_cons, ih _ areNames, components_child isName, List.append_assoc]
      rfl

theorem isAbsolute_below (path : Path)
    (areNames : ∀ name ∈ names, FileTree.isName name = true) :
    (path.below names).isAbsolute = path.isAbsolute := by
  induction names generalizing path with
  | nil => rfl
  | cons name names ih =>
      obtain ⟨isName, areNames⟩ := List.forall_mem_cons.mp areNames
      rw [below_cons, ih _ areNames, isAbsolute_child isName]

/-- What a row of names adds to a path that ends with a name. -/
theorem text_below_of_isOpenEnded (openEnded : path.IsOpenEnded)
    (areNames : ∀ name ∈ names, FileTree.isName name = true) :
    (path.below names).text = path.text ++ names.flatMap (slash :: ·) := by
  induction names generalizing path with
  | nil => exact (List.append_nil _).symm
  | cons name names ih =>
      obtain ⟨isName, areNames⟩ := List.forall_mem_cons.mp areNames
      rw [below_cons, ih (FileTree.child_isOpenEnded isName path) areNames,
        FileTree.child_text isName, openEnded.stem_eq, List.flatMap_cons]
      simp only [List.append_assoc, List.cons_append, List.nil_append]

/-- The text that a row of names adds, behind a slash. -/
def textOf : List Bytes → Bytes
  | [] => []
  | name :: names => name ++ names.flatMap (slash :: ·)

/-- **A row of names adds the same text to every path.** -/
theorem text_below (path : Path) (nonempty : names ≠ [])
    (areNames : ∀ name ∈ names, FileTree.isName name = true) :
    (path.below names).text = path.stem ++ textOf names := by
  obtain ⟨name, names, rfl⟩ := List.exists_cons_of_ne_nil nonempty
  obtain ⟨isName, areNames⟩ := List.forall_mem_cons.mp areNames
  rw [below_cons, text_below_of_isOpenEnded (FileTree.child_isOpenEnded isName path) areNames,
    FileTree.child_text isName, List.append_assoc]
  rfl

theorem steps_below_of_isOpenEnded (openEnded : path.IsOpenEnded)
    (areNames : ∀ name ∈ names, FileTree.isName name = true) :
    (path.below names).steps = path.steps ++ names.map Step.ofName := by
  induction names generalizing path with
  | nil => exact (List.append_nil _).symm
  | cons name names ih =>
      obtain ⟨isName, areNames⟩ := List.forall_mem_cons.mp areNames
      have frontSteps : path.frontSteps = path.steps :=
        frontSteps_of_stem openEnded.1 openEnded.stem_eq
      rw [below_cons, ih (FileTree.child_isOpenEnded isName path) areNames, steps_child isName,
        frontSteps, List.append_assoc]
      rfl

/-- **A row of names adds the same steps to every path.** -/
theorem steps_below (path : Path) (nonempty : names ≠ [])
    (areNames : ∀ name ∈ names, FileTree.isName name = true) :
    (path.below names).steps = path.frontSteps ++ names.map Step.ofName := by
  obtain ⟨name, names, rfl⟩ := List.exists_cons_of_ne_nil nonempty
  obtain ⟨isName, areNames⟩ := List.forall_mem_cons.mp areNames
  rw [below_cons, steps_below_of_isOpenEnded (FileTree.child_isOpenEnded isName path) areNames,
    steps_child isName, List.append_assoc]
  rfl

theorem fileName?_below (path : Path) (nonempty : names ≠ [])
    (areNames : ∀ name ∈ names, FileTree.isName name = true) :
    (path.below names).fileName? = names.getLast? := by
  obtain ⟨front, last, rfl⟩ := List.eq_nil_or_concat' names |>.resolve_left nonempty
  rw [fileName?, components_below path areNames, List.map_append, ← List.append_assoc,
    List.map_singleton, List.getLast?_concat, List.getLast?_concat]

/-! ## What is left behind a base -/

/-- The steps between a base that comes first in the path and names at the end of the path. -/
def between? (path base : Path) : Option (List Step) :=
  if base.isAbsolute = path.isAbsolute then
    (dropComponents (componentsOf base.steps) path.frontSteps).map (·.dropWhile (!·.counts))
  else none

theorem between?_eq_none_iff (nonempty : base.components ≠ []) :
    path.between? base = none ↔ ¬path.LiesUnder base := by
  rw [between?, LiesUnder]
  by_cases same : base.isAbsolute = path.isAbsolute
  · rw [if_pos same, Option.map_eq_none_iff, components_eq, components_eq, same,
      List.prefix_append_right_inj, ← componentsOf_frontSteps path, ← dropComponents_isSome_iff,
      Option.not_isSome_iff_eq_none]
  · rw [if_neg same]
    exact ⟨fun _ liesUnder => same (isAbsolute_eq_of_liesUnder nonempty liesUnder), fun _ => rfl⟩

/-- Names behind steps are left as they are. -/
theorem leftOf_append_names (steps : List Step) (nonempty : names ≠ []) :
    leftOf (steps ++ names.map Step.ofName) =
      ofSteps false (steps.dropWhile (!·.counts) ++ names.map Step.ofName) := by
  have counts : ∀ name, (Step.ofName name).counts = true := fun _ => rfl
  have keepsNames : (names.map Step.ofName).dropWhile (!·.counts) = names.map Step.ofName := by
    obtain ⟨first, rest, rfl⟩ := List.exists_cons_of_ne_nil nonempty
    rw [List.map_cons, List.dropWhile_cons_of_neg (by simp [counts])]
  have silentFront : (steps ++ names.map Step.ofName).dropWhile (!·.counts) =
      steps.dropWhile (!·.counts) ++ names.map Step.ofName := by
    rw [List.dropWhile_append, keepsNames]
    split_ifs with isEmpty
    · rw [List.isEmpty_iff.mp isEmpty, List.nil_append]
    · rfl
  obtain ⟨front, last, rfl⟩ := List.eq_nil_or_concat' names |>.resolve_left nonempty
  have noSilentEnd : ∀ step ∈ ([] : List Step), step.counts = false := List.forall_mem_nil _
  rw [leftOf, silentFront, List.map_append, List.map_singleton, ← List.append_assoc,
    dropSilentEnd_append_cons (counts last) noSilentEnd]

/-- **What is left of a path with names behind it** are the steps in front of the names, and the
names. -/
theorem stripPrefix?_below_of_between? {rest : List Step} (baseNonempty : base.components ≠ [])
    (isBetween : path.between? base = some rest) (nonempty : names ≠ [])
    (areNames : ∀ name ∈ names, FileTree.isName name = true) :
    (path.below names).stripPrefix? base =
      some (ofSteps false (rest ++ names.map Step.ofName)) := by
  rw [between?, Option.ite_none_right_eq_some] at isBetween
  obtain ⟨same, isBetween⟩ := isBetween
  obtain ⟨left, isLeft, rfl⟩ := Option.map_eq_some_iff.mp isBetween
  rw [stripPrefix?_eq baseNonempty (by rw [isAbsolute_below path areNames, same]),
    steps_below path nonempty areNames, dropComponents_append isLeft, Option.map_some,
    leftOf_append_names left nonempty]

/-- **Behind a path names are left as they are.** -/
theorem stripPrefix?_below_self (pathNonempty : path.components ≠ []) (nonempty : names ≠ [])
    (areNames : ∀ name ∈ names, FileTree.isName name = true) :
    (path.below names).stripPrefix? path = some (ofSteps false (names.map Step.ofName)) := by
  obtain ⟨silent, isRest, areSilent⟩ := exists_dropComponents_self path.frontSteps
  have nothingLeft : silent.dropWhile (!·.counts) = [] :=
    List.dropWhile_eq_nil_iff.mpr fun step member => by simp [areSilent step member]
  have isBetween : path.between? path = some [] := by
    rw [between?, if_pos rfl, ← componentsOf_frontSteps, isRest, Option.map_some, nothingLeft]
  exact stripPrefix?_below_of_between? pathNonempty isBetween nonempty areNames

/-- What is left behind a base further down depends on the names alone. -/
theorem stripPrefix?_below_of_above {further : List Component} (pathNonempty : path.components ≠ [])
    (isBase : base.components = path.components ++ further) (furtherNonempty : further ≠ [])
    (nonempty : names ≠ []) (areNames : ∀ name ∈ names, FileTree.isName name = true) :
    (path.below names).stripPrefix? base =
      (dropComponents further (names.map Step.ofName)).map leftOf := by
  have same : base.isAbsolute = path.isAbsolute :=
    (isAbsolute_eq_of_liesUnder pathNonempty ⟨further, isBase.symm⟩).symm
  have baseNonempty : base.components ≠ [] := by
    rw [isBase]
    exact List.append_ne_nil_of_right_ne_nil _ furtherNonempty
  have baseSteps : componentsOf base.steps = componentsOf path.frontSteps ++ further := by
    rw [components_eq, components_eq, same, List.append_assoc] at isBase
    rw [List.append_cancel_left isBase, componentsOf_frontSteps]
  rw [stripPrefix?_eq baseNonempty (by rw [isAbsolute_below path areNames, same]),
    steps_below path nonempty areNames, baseSteps, dropComponents_of_front furtherNonempty]

/-! ## Two spellings -/

/-- Two paths are spelled alike behind a base: the same steps come behind the base in both of them,
if it comes first at all, and a base further down is below both of them or none. -/
structure SpelledAlike (base first second : Path) : Prop where
  between : first.between? base = second.between? base
  components : base.LiesUnder first ∨ base.LiesUnder second →
    first.components = second.components

theorem SpelledAlike.symm (alike : SpelledAlike base first second) :
    SpelledAlike base second first :=
  ⟨alike.between.symm, fun under => (alike.components under.symm).symm⟩

instance (base first second : Path) : Decidable (SpelledAlike base first second) :=
  decidable_of_iff
    (first.between? base = second.between? base ∧
      (base.LiesUnder first ∨ base.LiesUnder second → first.components = second.components))
    ⟨fun ⟨between, components⟩ => ⟨between, components⟩,
      fun alike => ⟨alike.between, alike.components⟩⟩

/-- Below paths that lead to different places on the way to the base nothing lies under the base. -/
theorem not_liesUnder_below (notUnder : ¬path.LiesUnder base) (notAbove : ¬base.LiesUnder path)
    (areNames : ∀ name ∈ names, FileTree.isName name = true) :
    ¬(path.below names).LiesUnder base := by
  intro liesUnder
  have pathFirst : path.components <+: (path.below names).components := by
    rw [components_below path areNames]
    exact List.prefix_append _ _
  rcases List.prefix_or_prefix_of_prefix liesUnder pathFirst with under | above
  · exact notUnder under
  · exact notAbove above

/-- **What is left behind a base is the same for two paths that are spelled alike**, whatever names
come behind both of them. -/
theorem SpelledAlike.stripPrefix?_below (alike : SpelledAlike base first second)
    (baseNonempty : base.components ≠ []) (firstNonempty : first.components ≠ [])
    (nonempty : names ≠ [])
    (areNames : ∀ name ∈ names, FileTree.isName name = true) :
    (first.below names).stripPrefix? base = (second.below names).stripPrefix? base := by
  cases isBetween : first.between? base with
  | some rest =>
      rw [stripPrefix?_below_of_between? baseNonempty isBetween nonempty areNames,
        stripPrefix?_below_of_between? baseNonempty (alike.between ▸ isBetween) nonempty areNames]
  | none =>
      have firstNotUnder := (between?_eq_none_iff baseNonempty).mp isBetween
      have secondNotUnder := (between?_eq_none_iff baseNonempty).mp (alike.between ▸ isBetween)
      by_cases under : base.LiesUnder first ∨ base.LiesUnder second
      · have same := alike.components under
        obtain ⟨further, isBase⟩ : base.LiesUnder first := by
          rcases under with under | under
          · exact under
          · rw [LiesUnder, same]
            exact under
        have furtherNonempty : further ≠ [] := by
          rintro rfl
          refine firstNotUnder ⟨[], ?_⟩
          rw [← isBase, List.append_nil, List.append_nil]
        rw [stripPrefix?_below_of_above firstNonempty isBase.symm furtherNonempty nonempty areNames,
          stripPrefix?_below_of_above (same ▸ firstNonempty) (same ▸ isBase.symm) furtherNonempty
            nonempty areNames]
      · rw [not_or] at under
        rw [stripPrefix?_eq_none_iff.mpr (not_liesUnder_below firstNotUnder under.1 areNames),
          stripPrefix?_eq_none_iff.mpr (not_liesUnder_below secondNotUnder under.2 areNames)]

end SampleMethods.Path
