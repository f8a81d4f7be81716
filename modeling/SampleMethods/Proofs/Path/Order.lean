import Mathlib.Data.Prod.Lex
import Mathlib.Data.List.Lex
import Mathlib.Data.List.Nodup
import SampleMethods.Path
import SampleMethods.Proofs.Sorting

/-!
# The order of paths

Paths are compared by their components, from the first one on. The root comes before
`.`, that before `..`, and that before any name; names are compared by their bytes. So
paths with different components stand in strict order when they are sorted
(`isAtMost_comparesBy`).
-/

set_option autoImplicit false

namespace SampleMethods.Path

open Text (Bytes)

instance : LinearOrder UInt8 where
  le_refl := UInt8.le_refl
  le_trans _ _ _ := UInt8.le_trans
  le_antisymm _ _ := UInt8.le_antisymm
  le_total := UInt8.le_total
  lt_iff_le_not_ge first second := by
    rw [UInt8.not_le, iff_and_self]
    exact UInt8.le_of_lt
  toDecidableLE := inferInstance
  toDecidableEq := inferInstance
  toDecidableLT := inferInstance

/-- What components are compared by. -/
def Component.key : Component → ℕ ×ₗ Bytes
  | .name text => toLex (Component.rank (.name text), text)
  | component => toLex (component.rank, [])

theorem Component.key_injective : Function.Injective Component.key := by
  intro first second same
  cases first <;> cases second <;> simp_all [Component.key, Component.rank]

theorem Component.precedes_iff {first second : Component} :
    first.precedes second = true ↔ first.key < second.key := by
  cases first <;> cases second <;>
    simp [Component.precedes, Component.key, Component.rank, Prod.Lex.toLex_lt_toLex]

/-- What paths are compared by. -/
def key (path : Path) : List (ℕ ×ₗ Bytes) :=
  path.components.map Component.key

theorem precedesIn_iff {firsts seconds : List Component} :
    precedesIn firsts seconds = true ↔
      firsts.map Component.key < seconds.map Component.key := by
  induction firsts generalizing seconds with
  | nil =>
      cases seconds with
      | nil => simp [precedesIn]
      | cons second seconds => simp [precedesIn]
  | cons first firsts ih =>
      cases seconds with
      | nil => simp [precedesIn]
      | cons second seconds =>
          rw [precedesIn, List.map_cons, List.map_cons, List.cons_lt_cons_iff]
          by_cases same : first = second
          · subst same
            rw [if_pos (beq_self_eq_true first), ih]
            simp
          · have differ : first.key ≠ second.key := fun sameKey =>
              same (Component.key_injective sameKey)
            rw [if_neg (by simpa using same), Component.precedes_iff]
            simp [differ]

/-- The first path comes before the second one. -/
def Precedes (first second : Path) : Prop :=
  precedesIn first.components second.components = true

theorem precedes_iff {first second : Path} : first.Precedes second ↔ first.key < second.key :=
  precedesIn_iff

theorem isAtMost_comparesBy : ComparesBy key isAtMost := by
  intro first second
  rw [isAtMost, Bool.not_eq_true', ← Bool.not_eq_true, precedesIn_iff]
  exact not_lt

/-- **Paths with different components stand in strict order when they are sorted.** -/
theorem mergeSort_precedes {paths : List Path}
    (distinct : (paths.map components).Nodup) : (paths.mergeSort isAtMost).Pairwise Precedes := by
  have distinctKeys : (paths.map key).Nodup := by
    have differ := List.Nodup.map (List.map_injective_iff.mpr Component.key_injective) distinct
    rwa [List.map_map] at differ
  exact (isAtMost_comparesBy.strictlySorted distinctKeys).imp precedes_iff.mpr

end SampleMethods.Path
