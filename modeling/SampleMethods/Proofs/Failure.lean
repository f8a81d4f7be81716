import Mathlib.Data.List.Forall2
import Mathlib.Data.Option.Basic
import SampleMethods.Failure

/-!
# Steps that do not fail

A row of steps succeeds only if each of them does (`exists_of_bind`), and so does one step
that is taken for each element of a list (`mapM_eq_ok_iff`). A step that is named for its
failures gives the same results (`Failure.during_eq_ok_iff`).
-/

set_option autoImplicit false

namespace SampleMethods

/-- When two steps succeed, one after the other, each of them does. -/
theorem exists_of_bind {ε α β : Type} {step : Except ε α} {next : α → Except ε β} {last : β}
    (succeeds : (step >>= next) = .ok last) :
    ∃ middle, step = .ok middle ∧ next middle = .ok last := by
  cases step with
  | error failure => cases succeeds
  | ok middle => exact ⟨middle, rfl, succeeds⟩

theorem bind_eq_ok_iff {ε α β : Type} {step : Except ε α} {next : α → Except ε β} {last : β} :
    (step >>= next) = .ok last ↔ ∃ middle, step = .ok middle ∧ next middle = .ok last :=
  ⟨exists_of_bind, fun ⟨_, isMiddle, isLast⟩ => by rw [isMiddle]; exact isLast⟩

theorem pure_eq_ok_iff {ε α : Type} {value other : α} :
    (pure value : Except ε α) = .ok other ↔ other = value :=
  ⟨fun same => (Except.ok.inj same).symm, fun same => by rw [same]; rfl⟩

/-- When one of two steps fails, it is the first one, or the second one behind it. -/
theorem cases_of_bind_error {ε α β : Type} {step : Except ε α} {next : α → Except ε β} {error : ε}
    (fails : (step >>= next) = .error error) :
    step = .error error ∨ ∃ middle, step = .ok middle ∧ next middle = .error error := by
  cases step with
  | error failure =>
      cases fails
      exact .inl rfl
  | ok middle => exact .inr ⟨middle, rfl, fails⟩

/-- A step that is taken for each element of a list succeeds if it does so for each of them. -/
theorem mapM_eq_ok_iff {ε α β : Type} {step : α → Except ε β} {elements : List α}
    {results : List β} :
    elements.mapM step = .ok results ↔
      List.Forall₂ (fun element result => step element = .ok result) elements results := by
  induction elements generalizing results with
  | nil =>
      rw [List.mapM_nil, List.forall₂_nil_left_iff]
      exact ⟨fun same => (Except.ok.inj same).symm, fun same => same ▸ rfl⟩
  | cons element elements ih =>
      rw [List.mapM_cons, List.forall₂_cons_left_iff]
      constructor
      · intro succeeds
        obtain ⟨result, isResult, succeeds⟩ := exists_of_bind succeeds
        obtain ⟨others, areOthers, same⟩ := exists_of_bind succeeds
        cases same
        exact ⟨result, others, isResult, ih.mp areOthers, rfl⟩
      · rintro ⟨result, others, isResult, areOthers, rfl⟩
        rw [isResult, ih.mpr areOthers]
        rfl

/-- A changed result is there just if the result is. -/
theorem map_eq_ok_iff {ε α β : Type} {result : Except ε α} {change : α → β} {value : β} :
    result.map change = .ok value ↔ ∃ before, result = .ok before ∧ change before = value := by
  cases result with
  | ok found => simp [Except.map]
  | error error => simp [Except.map]

/-- A step succeeds just if it does so with other errors. -/
theorem mapError_eq_ok_iff {ε δ α : Type} {result : Except ε α} {change : ε → δ} {value : α} :
    result.mapError change = .ok value ↔ result = .ok value := by
  cases result with
  | ok found => exact Iff.of_eq (by rw [Except.mapError, Except.ok.injEq, Except.ok.injEq])
  | error error => exact iff_of_false (fun same => by cases same) fun same => by cases same

/-- A result with a property is there when the property can be checked. -/
theorem exists_ok {α ε : Type} {result : Except ε α} {property : α → Prop}
    [DecidablePred property]
    (holds : (result.toOption.any fun value => property value) = true) :
    ∃ value, result = .ok value ∧ property value := by
  cases result with
  | ok value => exact ⟨value, rfl, of_decide_eq_true holds⟩
  | error error => cases holds

/-- A step that succeeds gives what it gives without its name. -/
theorem Failure.of_during {α : Type} {step : String} {result : Except Failure α} {value : α}
    (succeeds : Failure.during step result = .ok value) : result = .ok value := by
  cases result with
  | ok found => exact succeeds
  | error failure => cases succeeds

/-- A step succeeds under a name just if it does so without one. -/
theorem Failure.during_eq_ok_iff {α : Type} {step : String} {result : Except Failure α}
    {value : α} : Failure.during step result = .ok value ↔ result = .ok value :=
  ⟨of_during, fun succeeds => by rw [succeeds]; rfl⟩

end SampleMethods
