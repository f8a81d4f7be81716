import Mathlib.Data.List.Nodup
import Mathlib.Order.Lattice

/-!
# Sorting by a key

A list that is sorted by a test is in the order of a key when the test compares
keys in a linear order. Where no key comes up twice the order is strict, and the
sorted list does not depend on the order in which the elements came. Elements may be
dropped before or after the list is sorted (`ComparesBy.filter_mergeSort`).

Two such lists with the same names have them in the same order exactly if the keys of
any two names compare alike in both (`map_eq_map_iff_compareAlike`).
-/

set_option autoImplicit false

namespace SampleMethods

section SortingByKey

variable {α β : Type} [LinearOrder β] (key : α → β) {le : α → α → Bool}

/-- The test compares keys. -/
def ComparesBy (le : α → α → Bool) : Prop :=
  ∀ first second, le first second = true ↔ key first ≤ key second

variable {key}

theorem ComparesBy.trans (compares : ComparesBy key le) (first second third : α)
    (below : le first second = true) (above : le second third = true) : le first third = true :=
  (compares _ _).mpr (le_trans ((compares _ _).mp below) ((compares _ _).mp above))

theorem ComparesBy.total (compares : ComparesBy key le) (first second : α) :
    (le first second || le second first) = true := by
  rw [Bool.or_eq_true, compares, compares]
  exact le_total _ _

theorem ComparesBy.sorted (compares : ComparesBy key le) (items : List α) :
    (items.mergeSort le).Pairwise (key · ≤ key ·) :=
  (List.pairwise_mergeSort compares.trans compares.total items).imp
    fun {first second} => (compares first second).mp

/-- Keys that come up only once are in strict order afterwards. -/
theorem ComparesBy.strictlySorted (compares : ComparesBy key le) {items : List α}
    (distinct : (items.map key).Nodup) : (items.mergeSort le).Pairwise (key · < key ·) := by
  have sameKeys : ((items.mergeSort le).map key).Perm (items.map key) :=
    (List.mergeSort_perm items le).map key
  have differ := List.pairwise_map.mp (sameKeys.nodup_iff.mpr distinct)
  exact ((compares.sorted items).and differ).imp fun ⟨below, differs⟩ =>
    lt_of_le_of_ne below differs

/-- A list falls apart in one way only into elements that pass a test and elements that do not. -/
theorem append_inj_of_apart {α : Type} {test : α → Bool} {front back first second : List α}
    (same : front ++ back = first ++ second)
    (frontPass : ∀ item ∈ front, test item = true) (backFail : ∀ item ∈ back, test item = false)
    (firstPass : ∀ item ∈ first, test item = true)
    (secondFail : ∀ item ∈ second, test item = false) : front = first ∧ back = second := by
  have filtered := congrArg (List.filter test) same
  rw [List.filter_append, List.filter_append, List.filter_eq_self.mpr frontPass,
    List.filter_eq_self.mpr firstPass,
    List.filter_eq_nil_iff.mpr fun item member => by simp [backFail item member],
    List.filter_eq_nil_iff.mpr fun item member => by simp [secondFail item member],
    List.append_nil, List.append_nil] at filtered
  subst filtered
  exact ⟨rfl, List.append_cancel_left same⟩

/-- An element is put in front of those that are not below it. -/
theorem ComparesBy.exists_mergeSort_cons (compares : ComparesBy key le) (item : α)
    (others : List α) : ∃ front back, (item :: others).mergeSort le = front ++ item :: back ∧
      others.mergeSort le = front ++ back ∧ (∀ other ∈ front, (!le item other) = true) ∧
      ∀ other ∈ back, (!le item other) = false := by
  obtain ⟨front, back, placed, rest, above⟩ :=
    List.mergeSort_cons compares.trans compares.total item others
  have sorted := List.pairwise_mergeSort compares.trans compares.total (item :: others)
  rw [placed] at sorted
  have below := (List.pairwise_cons.mp (List.pairwise_append.mp sorted).2.1).1
  exact ⟨front, back, placed, rest, above, fun other member => by simp [below other member]⟩

/-- **What is dropped from a list may be dropped before or after it is sorted**, since sorting
leaves elements with the same key in their order. -/
theorem ComparesBy.filter_mergeSort (compares : ComparesBy key le) (keep : α → Bool)
    (items : List α) : (items.mergeSort le).filter keep = (items.filter keep).mergeSort le := by
  induction items with
  | nil => simp
  | cons item items ih =>
      obtain ⟨front, back, placed, rest, frontBelow, backAbove⟩ :=
        compares.exists_mergeSort_cons item items
      rw [rest, List.filter_append] at ih
      rw [placed, List.filter_append]
      cases kept : keep item with
      | false =>
          rw [List.filter_cons_of_neg (by simp [kept]), List.filter_cons_of_neg (by simp [kept]), ih]
      | true =>
          rw [List.filter_cons_of_pos kept, List.filter_cons_of_pos kept]
          obtain ⟨first, second, placedToo, restToo, firstBelow, secondAbove⟩ :=
            compares.exists_mergeSort_cons item (items.filter keep)
          obtain ⟨sameFront, sameBack⟩ := append_inj_of_apart (ih.trans restToo)
            (fun other member => frontBelow other (List.mem_of_mem_filter member))
            (fun other member => backAbove other (List.mem_of_mem_filter member))
            firstBelow secondAbove
          rw [placedToo, sameFront, sameBack]

end SortingByKey

/-! ## Two rows in strict order -/

section CompareAlike

variable {α β ν : Type} [LinearOrder β] {name : α → ν} {key : α → β} {items others : List α}

/-- Keys of elements with the same names compare alike in the two lists. -/
def CompareAlike (name : α → ν) (key : α → β) (items others : List α) : Prop :=
  ∀ first ∈ items, ∀ second ∈ items, ∀ other ∈ others, ∀ another ∈ others,
    name first = name other → name second = name another →
      (key first < key second ↔ key other < key another)

/-- In strict order the element further on has the greater key. -/
theorem key_getElem_lt_iff (sorted : items.Pairwise (key · < key ·)) {i j : ℕ}
    (iFits : i < items.length) (jFits : j < items.length) :
    key items[i] < key items[j] ↔ i < j := by
  have ordered := List.pairwise_iff_getElem.mp sorted
  constructor
  · intro below
    rcases lt_trichotomy i j with before | rfl | behind
    · exact before
    · exact absurd below (lt_irrefl _)
    · exact absurd below (lt_asymm (ordered j i jFits iFits behind))
  · exact ordered i j iFits jFits

/-- The names are those of elements, the first one with the lower key. -/
def ComesBefore (name : α → ν) (key : α → β) (items : List α) (first second : ν) : Prop :=
  ∃ item ∈ items, ∃ further ∈ items, name item = first ∧ name further = second ∧
    key item < key further

theorem ComesBefore.asymm (distinct : (items.map name).Nodup) {first second : ν}
    (one : ComesBefore name key items first second) :
    ¬ComesBefore name key items second first := by
  obtain ⟨item, isItem, further, isFurther, rfl, rfl, below⟩ := one
  rintro ⟨other, isOther, another, isAnother, sameOther, sameAnother, above⟩
  obtain rfl := List.inj_on_of_nodup_map distinct isOther isFurther sameOther
  obtain rfl := List.inj_on_of_nodup_map distinct isAnother isItem sameAnother
  exact lt_asymm below above

/-- **Rows in strict order have the same names in the same order exactly if they compare
alike.** -/
theorem map_eq_map_iff_compareAlike (sorted : items.Pairwise (key · < key ·))
    (othersSorted : others.Pairwise (key · < key ·))
    (perm : (items.map name).Perm (others.map name)) (distinct : (items.map name).Nodup) :
    items.map name = others.map name ↔ CompareAlike name key items others := by
  have othersDistinct := perm.nodup_iff.mp distinct
  constructor
  · intro same first isFirst second isSecond other isOther another isAnother sameName sameSecond
    obtain ⟨i, iFits, rfl⟩ := List.getElem_of_mem isFirst
    obtain ⟨j, jFits, rfl⟩ := List.getElem_of_mem isSecond
    obtain ⟨k, kFits, rfl⟩ := List.getElem_of_mem isOther
    obtain ⟨l, lFits, rfl⟩ := List.getElem_of_mem isAnother
    have samePlace : ∀ {m n : ℕ} (mFits : m < items.length) (nFits : n < others.length),
        name items[m] = name others[n] → m = n := by
      intro m n mFits nFits sameName
      have mFitsToo : m < (others.map name).length := by
        rw [← same, List.length_map]
        exact mFits
      refine (List.getElem?_inj mFitsToo othersDistinct).mp ?_
      rw [← same, List.getElem?_map, same, List.getElem?_map, List.getElem?_eq_getElem mFits,
        List.getElem?_eq_getElem nFits]
      exact congrArg some sameName
    rw [key_getElem_lt_iff sorted iFits jFits, key_getElem_lt_iff othersSorted kFits lFits,
      samePlace iFits kFits sameName, samePlace jFits lFits sameSecond]
  · intro alike
    have itemOf : ∀ other ∈ others, ∃ item ∈ items, name item = name other := fun other isOther =>
      List.mem_map.mp (perm.mem_iff.mpr (List.mem_map_of_mem isOther))
    have ordered : (items.map name).Pairwise (ComesBefore name key items) := by
      refine List.pairwise_map.mpr (sorted.imp_of_mem ?_)
      intro item further isItem isFurther below
      exact ⟨item, isItem, further, isFurther, rfl, rfl, below⟩
    have othersOrdered : (others.map name).Pairwise (ComesBefore name key items) := by
      refine List.pairwise_map.mpr (othersSorted.imp_of_mem ?_)
      intro other another isOther isAnother below
      obtain ⟨item, isItem, sameName⟩ := itemOf other isOther
      obtain ⟨further, isFurther, sameFurther⟩ := itemOf another isAnother
      exact ⟨item, isItem, further, isFurther, sameName, sameFurther,
        (alike item isItem further isFurther other isOther another isAnother sameName
          sameFurther).mpr below⟩
    exact perm.eq_of_pairwise (fun _ _ _ _ before behind => absurd behind (before.asymm distinct))
      ordered othersOrdered

end CompareAlike

end SampleMethods
