import Mathlib.Data.List.DropRight
import SampleMethods.Proofs.FileTree.Collection
import SampleMethods.Proofs.Text.Split

/-!
# The steps of paths

What stands behind a slash of a path adds steps to those in front of it
(`steps_append_slash`). A name put at the end of a path therefore adds one step
(`steps_child`) and one component (`components_child`).
-/

set_option autoImplicit false

namespace SampleMethods.Path

open Text (Bytes point slash)

variable {path : Path}

/-! ## Cutting paths into steps -/

/-- The step that a piece of a path is when it stands behind a slash. -/
def Step.behindSlash (text : Bytes) : Step :=
  ⟨text, !(text.isEmpty || text == [point])⟩

theorem steps_of_isAbsolute (absolute : path.isAbsolute = true) :
    path.steps = (Text.cutAt slash path.text.tail).map Step.behindSlash := by
  rw [steps, absolute]
  cases isCut : Text.cutAt slash path.text.tail with
  | nil => simp [isCut]
  | cons first others => simp [isCut, Step.behindSlash]

/-- The first step of a path that does not start at the root counts unless it is empty. -/
theorem steps_of_relative (relative : path.isAbsolute = false) {first : Bytes}
    {others : List Bytes} (isCut : Text.cutAt slash path.text = first :: others) :
    path.steps = ⟨first, !first.isEmpty⟩ :: others.map Step.behindSlash := by
  have counts : (!(first.isEmpty || first == [point]) || (!false && first == [point])) =
      !first.isEmpty := by
    cases dot : first == [point] with
    | true =>
        rw [beq_iff_eq.mp dot]
        rfl
    | false => cases first.isEmpty <;> rfl
  simp only [steps, relative, Bool.false_eq_true, if_false, isCut, counts]
  rfl

/-- The step that the first piece of a path is. -/
def Step.atStart (absolute : Bool) (text : Bytes) : Step :=
  if absolute then Step.behindSlash text else ⟨text, !text.isEmpty⟩

/-- The pieces of a path are its steps, the first one by where the path starts. -/
theorem steps_of_cutAt {first : Bytes} {others : List Bytes}
    (isCut : Text.cutAt slash (if path.isAbsolute then path.text.tail else path.text) =
      first :: others) :
    path.steps = Step.atStart path.isAbsolute first :: others.map Step.behindSlash := by
  cases absolute : path.isAbsolute with
  | true =>
      rw [absolute, if_pos rfl] at isCut
      rw [steps_of_isAbsolute absolute, isCut]
      rfl
  | false =>
      simp only [absolute, Bool.false_eq_true, if_false] at isCut
      rw [steps_of_relative absolute isCut]
      rfl

theorem steps_map_text (path : Path) :
    path.steps.map (·.text) =
      Text.cutAt slash (if path.isAbsolute then path.text.tail else path.text) := by
  rw [steps]
  cases Text.cutAt slash (if path.isAbsolute then path.text.tail else path.text) with
  | nil => rfl
  | cons first others => simp [Function.comp_def]

theorem text_of_isAbsolute (absolute : path.isAbsolute = true) :
    path.text = slash :: path.text.tail := by
  rw [isAbsolute, beq_iff_eq] at absolute
  exact (List.cons_head?_tail absolute).symm

/-- A path that starts at the root has one piece more than it has steps: nothing, in front of the
first slash. -/
theorem stepsOf_of_isAbsolute (absolute : path.isAbsolute = true) :
    FileTree.stepsOf path = [] :: path.steps.map (·.text) := by
  have front :
      Text.cutAt slash (slash :: path.text.tail) = [] :: Text.cutAt slash path.text.tail := rfl
  rw [steps_map_text, absolute, if_pos rfl, FileTree.stepsOf, text_of_isAbsolute absolute, front]
  rfl

/-- **What stands behind a slash adds steps.** -/
theorem steps_append_slash {front : Bytes} (nonempty : front ≠ []) (behind : Bytes) :
    (⟨front ++ slash :: behind⟩ : Path).steps =
      (⟨front⟩ : Path).steps ++ (Text.cutAt slash behind).map Step.behindSlash := by
  obtain ⟨first, rest, rfl⟩ := List.exists_cons_of_ne_nil nonempty
  cases isSlash : first == slash with
  | true =>
      have absolute : ∀ others : Bytes, (⟨first :: others⟩ : Path).isAbsolute = true :=
        fun others => by simpa [isAbsolute] using isSlash
      rw [List.cons_append, steps_of_isAbsolute (absolute _), steps_of_isAbsolute (absolute _)]
      simp only [List.tail_cons, Text.cutAt_append_cons, List.map_append]
  | false =>
      have relative : ∀ others : Bytes, (⟨first :: others⟩ : Path).isAbsolute = false :=
        fun others => by simpa [isAbsolute] using isSlash
      obtain ⟨piece, pieces, isCut⟩ :=
        List.exists_cons_of_ne_nil (Text.cutAt_ne_nil slash (first :: rest))
      have cut : Text.cutAt slash (first :: (rest ++ slash :: behind)) =
          piece :: (pieces ++ Text.cutAt slash behind) := by
        rw [← List.cons_append, Text.cutAt_append_cons, isCut, List.cons_append]
      rw [List.cons_append, steps_of_relative (relative _) cut,
        steps_of_relative (relative _) isCut, List.map_append, List.cons_append]

/-! ## Components of steps -/

/-- The components that steps are, apart from those that make no difference. -/
def componentsOf (steps : List Step) : List Component :=
  (steps.filter (·.counts)).map Step.component

theorem components_eq (path : Path) :
    path.components = (if path.isAbsolute then [.root] else []) ++ componentsOf path.steps := rfl

theorem componentsOf_append (front behind : List Step) :
    componentsOf (front ++ behind) = componentsOf front ++ componentsOf behind := by
  rw [componentsOf, List.filter_append, List.map_append]
  rfl

theorem componentsOf_cons_of_counts {step : Step} (counts : step.counts = true)
    (steps : List Step) : componentsOf (step :: steps) = step.component :: componentsOf steps := by
  rw [componentsOf, List.filter_cons_of_pos counts, List.map_cons]
  rfl

theorem componentsOf_cons_of_silent {step : Step} (silent : step.counts = false)
    (steps : List Step) : componentsOf (step :: steps) = componentsOf steps := by
  rw [componentsOf, List.filter_cons_of_neg (by simp [silent])]
  rfl

theorem componentsOf_of_silent {steps : List Step} (silent : ∀ step ∈ steps, step.counts = false) :
    componentsOf steps = [] := by
  induction steps with
  | nil => rfl
  | cons step steps ih =>
      obtain ⟨stepSilent, restSilent⟩ := List.forall_mem_cons.mp silent
      rw [componentsOf_cons_of_silent stepSilent, ih restSilent]

theorem Step.component_ne_root (step : Step) : step.component ≠ .root := by
  rw [Step.component]
  split_ifs <;> simp

theorem root_not_mem_componentsOf (steps : List Step) : Component.root ∉ componentsOf steps := by
  intro member
  obtain ⟨step, _, isRoot⟩ := List.mem_map.mp member
  exact step.component_ne_root isRoot

/-- Only the first component can be the root. -/
theorem root_not_mem_tail_components (path : Path) : Component.root ∉ path.components.tail := by
  intro member
  refine root_not_mem_componentsOf path.steps ?_
  rw [components_eq] at member
  split_ifs at member
  · exact member
  · exact List.mem_of_mem_tail member

/-- Only the empty path has no text. -/
theorem empty_or_hasText (path : Path) : path = ⟨[]⟩ ∨ path.text ≠ [] := by
  obtain ⟨text⟩ := path
  cases text with
  | nil => exact .inl rfl
  | cons first rest => exact .inr (List.cons_ne_nil first rest)

/-- Only the empty path has no components. -/
theorem components_ne_nil (nonempty : path.text ≠ []) : path.components ≠ [] := by
  obtain ⟨text⟩ := path
  obtain ⟨first, rest, rfl⟩ := List.exists_cons_of_ne_nil nonempty
  rw [components_eq]
  cases isSlash : first == slash with
  | true =>
      have absolute : (⟨first :: rest⟩ : Path).isAbsolute = true := by
        simpa [isAbsolute] using isSlash
      simp [absolute]
  | false =>
      -- The first step is not empty, and that is all it takes for it to count.
      have relative : (⟨first :: rest⟩ : Path).isAbsolute = false := by
        simpa [isAbsolute] using isSlash
      obtain ⟨piece, pieces, isCut⟩ := Text.exists_cutAt_cons (beq_eq_false_iff_ne.mp isSlash) rest
      rw [steps_of_relative relative isCut, componentsOf_cons_of_counts rfl]
      simp

/-! ## Steps in front of names -/

/-- The steps in front of a name that is put at the end of the path. -/
def frontSteps (path : Path) : List Step :=
  (⟨path.stem⟩ : Path).steps.dropLast

/-- A name is put behind nothing, or behind a slash that is there or is put there as well. -/
theorem stem_cases (path : Path) :
    path.text = [] ∧ path.stem = [] ∨
      ∃ front, path.stem = front ++ [slash] ∧
        (path.text = front ++ [slash] ∨ path.text = front ∧ front ≠ []) := by
  by_cases isEmpty : path.text = []
  · exact .inl ⟨isEmpty, by simp [stem, isEmpty]⟩
  · by_cases isSlash : path.text.getLast? = some slash
    · obtain ⟨front, isText⟩ := List.getLast?_eq_some_iff.mp isSlash
      exact .inr ⟨front, by rw [stem, isSlash, isText]; simp, .inl isText⟩
    · have openEnded : path.IsOpenEnded := ⟨isEmpty, isSlash⟩
      exact .inr ⟨path.text, openEnded.stem_eq, .inr ⟨rfl, isEmpty⟩⟩

theorem steps_behind_stem {front : Bytes} (isStem : path.stem = front ++ [slash])
    (behind : Bytes) :
    (⟨front ++ slash :: behind⟩ : Path).steps =
      path.frontSteps ++ (Text.cutAt slash behind).map Step.behindSlash := by
  rw [frontSteps, isStem]
  cases front with
  | nil =>
      rw [List.nil_append, List.nil_append, steps_of_isAbsolute rfl, steps_of_isAbsolute rfl]
      rfl
  | cons first rest =>
      rw [steps_append_slash (List.cons_ne_nil first rest),
        steps_append_slash (List.cons_ne_nil first rest), Text.cutAt, List.map_singleton,
        List.dropLast_concat]

/-- Where a name is put behind a slash of its own, it comes behind the steps of the path. -/
theorem frontSteps_of_stem (nonempty : path.text ≠ []) (isStem : path.stem = path.text ++ [slash]) :
    path.frontSteps = path.steps := by
  rw [frontSteps, isStem, steps_append_slash nonempty, Text.cutAt, List.map_singleton,
    List.dropLast_concat]

/-- The steps of a path are those in front of a name, except for a slash at its end. -/
theorem steps_eq_frontSteps (path : Path) :
    path.steps = path.frontSteps ∨ path.steps = path.frontSteps ++ [⟨[], false⟩] := by
  obtain ⟨text⟩ := path
  rcases stem_cases ⟨text⟩ with ⟨noText, noStem⟩ | ⟨front, isStem, isText | ⟨isText, nonempty⟩⟩
  · cases noText
    exact .inr rfl
  · cases isText
    exact .inr (steps_behind_stem isStem [])
  · cases isText
    exact .inl (frontSteps_of_stem nonempty isStem).symm

theorem componentsOf_frontSteps (path : Path) :
    componentsOf path.frontSteps = componentsOf path.steps := by
  rcases steps_eq_frontSteps path with same | same
  · rw [same]
  · rw [same, componentsOf_append]
    exact (List.append_nil _).symm

/-! ## Names behind paths -/

section Children

variable {name : Bytes} (isName : FileTree.isName name = true)

include isName

theorem Step.behindSlash_name : Step.behindSlash name = ⟨name, true⟩ := by
  obtain ⟨nonempty, notHere, _⟩ := FileTree.isName_iff.mp isName
  simp [Step.behindSlash, nonempty, notHere]

theorem Step.component_name (counts : Bool) : Step.component ⟨name, counts⟩ = .name name := by
  obtain ⟨_, notHere, notUp, _⟩ := FileTree.isName_iff.mp isName
  simp [Step.component, notHere, notUp]

theorem cutAt_name : Text.cutAt slash name = [name] :=
  Text.cutAt_of_not_mem (FileTree.isName_iff.mp isName).2.2.2

theorem isAbsolute_child (path : Path) : (path.child name).isAbsolute = path.isAbsolute := by
  have relative := FileTree.isAbsolute_name isName
  rw [isAbsolute] at relative
  rw [isAbsolute, isAbsolute, FileTree.child_text isName]
  cases isText : path.text with
  | nil => simpa [stem, isText] using relative
  | cons first rest =>
      rw [stem, isText]
      split_ifs
      · rfl
      · rfl

/-- **A name at the end of a path is one more step.** -/
theorem steps_child (path : Path) :
    (path.child name).steps = path.frontSteps ++ [⟨name, true⟩] := by
  have isChild : path.child name = ⟨path.stem ++ name⟩ :=
    congrArg Path.mk (FileTree.child_text isName path)
  rw [isChild]
  rcases stem_cases path with ⟨noText, noStem⟩ | ⟨front, isStem, _⟩
  · -- Behind nothing the name is the first step.
    have relative := FileTree.isAbsolute_name isName
    have counts : name.isEmpty = false := by simp [(FileTree.isName_iff.mp isName).1]
    rw [frontSteps, noStem, List.nil_append, steps_of_relative relative (cutAt_name isName), counts]
    rfl
  · rw [isStem, List.append_assoc, List.singleton_append, steps_behind_stem isStem,
      cutAt_name isName, List.map_singleton, Step.behindSlash_name isName]

/-- **A name at the end of a path is one more component.** -/
theorem components_child (path : Path) :
    (path.child name).components = path.components ++ [.name name] := by
  rw [components_eq, components_eq, isAbsolute_child isName, steps_child isName,
    ← componentsOf_frontSteps, componentsOf_append, componentsOf_cons_of_counts rfl,
    Step.component_name isName, List.append_assoc]
  rfl

end Children

end SampleMethods.Path
