import Mathlib.Data.List.Sort
import Mathlib.Data.String.Basic
import SampleMethods.Proofs.LineNumber
import SampleMethods.Proofs.Sorting
import SampleMethods.Region

/-!
# The tags that regions give to methods

The tags of a method are kept in a canonical form: in strict order, so that none
is there twice (`canonicalTags_sorted`), and with nothing lost or added
(`mem_canonicalTags`). So a method to which regions are attached has its own tags
and those of the regions around it, and is otherwise left alone.

What regions are around a method does not depend on its tags, and a canonical list is
told by its members. So it does not matter how often regions are attached, in which
order, and in how many steps (`attach_accumulates`).
-/

set_option autoImplicit false

namespace SampleMethods.Region

/-! ## Canonical lists of tags -/

theorem mem_dropRepeats {tag : String} {tags : List String} :
    tag ∈ dropRepeats tags ↔ tag ∈ tags := by
  induction tags using dropRepeats.induct with
  | case1 => rfl
  | case2 tag => rfl
  | case3 second rest ih =>
      rw [dropRepeats, if_pos rfl, ih]
      simp
  | case4 first second rest differs ih =>
      rw [dropRepeats, if_neg differs, List.mem_cons, ih, List.mem_cons (a := tag) (b := first)]

/-- In an ordered list equal tags stand side by side, so none stays twice. -/
theorem dropRepeats_sorted {tags : List String} (sorted : tags.Pairwise (· ≤ ·)) :
    (dropRepeats tags).Pairwise (· < ·) := by
  induction tags using dropRepeats.induct with
  | case1 => exact .nil
  | case2 tag => exact List.pairwise_singleton _ _
  | case3 second rest ih =>
      rw [dropRepeats, if_pos rfl]
      exact ih (List.pairwise_cons.mp sorted).2
  | case4 first second rest differs ih =>
      obtain ⟨below, restSorted⟩ := List.pairwise_cons.mp sorted
      have before : first < second := lt_of_le_of_ne (below second List.mem_cons_self) differs
      rw [dropRepeats, if_neg differs]
      refine List.pairwise_cons.mpr ⟨fun tag member => ?_, ih restSorted⟩
      rcases List.mem_cons.mp (mem_dropRepeats.mp member) with rfl | inRest
      · exact before
      · exact before.trans_le ((List.pairwise_cons.mp restSorted).1 tag inRest)

/-- Tags are sorted by themselves. -/
theorem tags_comparesBy :
    ComparesBy (id : String → String) fun first second => !(second < first) := by
  intro first second
  simp only [Bool.not_eq_true', decide_eq_false_iff_not, not_lt, id_eq]

theorem canonicalTags_sorted (tags : List String) : (canonicalTags tags).Pairwise (· < ·) :=
  dropRepeats_sorted (tags_comparesBy.sorted tags)

theorem mem_canonicalTags {tag : String} {tags : List String} :
    tag ∈ canonicalTags tags ↔ tag ∈ tags := by
  rw [canonicalTags, mem_dropRepeats, List.mem_mergeSort]

/-! ## Attaching -/

theorem encloses_iff {region : Region} {method : Method} :
    region.encloses method = true ↔
      region.startLine.toNat ≤ method.startLine.toNat ∧
        method.endLine.toNat ≤ region.endLine.toNat := by
  rw [encloses, Bool.and_eq_true, LineNumber.isAtMost_iff, LineNumber.isAtMost_iff]

theorem attachTo_sorted (regions : List Region) (method : Method) :
    (attachTo regions method).regionTags.Pairwise (· < ·) :=
  canonicalTags_sorted _

theorem mem_attachTo {regions : List Region} {method : Method} {tag : String} :
    tag ∈ (attachTo regions method).regionTags ↔
      tag ∈ method.regionTags ∨
        ∃ region ∈ regions, region.encloses method = true ∧ region.tag = tag := by
  simp only [attachTo, mem_canonicalTags, List.mem_append, List.mem_map, List.mem_filter,
    and_assoc]

/-! ## Attaching more than once -/

/-- A canonical list is told by its members. -/
theorem canonicalTags_congr {tags others : List String}
    (same : ∀ tag, tag ∈ tags ↔ tag ∈ others) : canonicalTags tags = canonicalTags others := by
  refine (canonicalTags_sorted tags).eq_of_mem_iff (canonicalTags_sorted others) fun tag => ?_
  rw [mem_canonicalTags, mem_canonicalTags, same]

/-- **What is attached in two steps can be attached in one**, whatever the order and however often
a region comes up. -/
theorem attach_attach {regions further others : List Region}
    (same : ∀ region, region ∈ others ↔ region ∈ regions ++ further) (methods : List Method) :
    attach further (attach regions methods) = attach others methods := by
  have ofMethod : ∀ method : Method,
      attachTo further (attachTo regions method) = attachTo others method := by
    intro method
    -- The lines of the method stay, so the same regions are around it in the second step.
    have sameTags : (attachTo further (attachTo regions method)).regionTags =
        (attachTo others method).regionTags := by
      refine canonicalTags_congr fun tag => ?_
      simp only [List.mem_append, List.mem_map, List.mem_filter, mem_attachTo, same]
      constructor
      · rintro ((own | ⟨region, isRegion, encloses, isTag⟩) | ⟨region, ⟨isFurther, encloses⟩, isTag⟩)
        · exact .inl own
        · exact .inr ⟨region, ⟨.inl isRegion, encloses⟩, isTag⟩
        · exact .inr ⟨region, ⟨.inr isFurther, encloses⟩, isTag⟩
      · rintro (own | ⟨region, ⟨isRegion | isFurther, encloses⟩, isTag⟩)
        · exact .inl (.inl own)
        · exact .inl (.inr ⟨region, isRegion, encloses, isTag⟩)
        · exact .inr ⟨region, ⟨isFurther, encloses⟩, isTag⟩
    calc attachTo further (attachTo regions method)
        = { method with regionTags := (attachTo further (attachTo regions method)).regionTags } := rfl
      _ = attachTo others method := by rw [sameTags]; rfl
  rw [attach, attach, attach, List.map_map]
  exact List.map_congr_left fun method _ => ofMethod method

/-- **Attaching regions gathers tags.** The methods stay as many and in their order, and change in
nothing but their tags: each has, in strict order, the tags it had and those of the regions that
start at or above its first line and end at or below its last one. So attaching the same regions
again changes nothing, and regions that are attached in two steps, in either order, can be attached
in one, in any order and any number of times each. -/
theorem attach_accumulates (methods : List Method) (regions : List Region) :
    List.Forall₂ (fun attached method : Method =>
      attached = { method with regionTags := attached.regionTags } ∧
      attached.regionTags.Pairwise (· < ·) ∧
      ∀ tag, tag ∈ attached.regionTags ↔
        tag ∈ method.regionTags ∨ ∃ region ∈ regions,
          region.startLine.toNat ≤ method.startLine.toNat ∧
          method.endLine.toNat ≤ region.endLine.toNat ∧ region.tag = tag)
      (attach regions methods) methods ∧
    attach regions (attach regions methods) = attach regions methods ∧
    ∀ further others : List Region,
      (∀ region, region ∈ others ↔ region ∈ regions ++ further) →
        attach further (attach regions methods) = attach others methods ∧
        attach regions (attach further methods) = attach others methods := by
  refine ⟨?_, attach_attach (fun region => ?_) methods, fun further others same => ?_⟩
  · rw [attach, List.forall₂_map_left_iff, List.forall₂_same]
    intro method _
    refine ⟨rfl, attachTo_sorted regions method, fun tag => ?_⟩
    simp only [mem_attachTo, encloses_iff, and_assoc]
  · rw [List.mem_append, or_self]
  · have swapped : ∀ region, region ∈ others ↔ region ∈ further ++ regions := by
      intro region
      rw [same, List.mem_append, List.mem_append, or_comm]
    exact ⟨attach_attach same methods, attach_attach swapped methods⟩

/-- A method on three lines, with tags that are in no order. -/
def taggedMethod : Method :=
  ⟨"list", "a.js", .ofNat 4, .ofNat 6, ["storage", "list"]⟩

/-- Regions around these lines, one of them with a tag that the method has, and a region that ends
on the second line. -/
def wideRegions : List Region :=
  [⟨"storage", .ofNat 1, .ofNat 9⟩, ⟨"bucket", .ofNat 4, .ofNat 6⟩, ⟨"short", .ofNat 4, .ofNat 5⟩]

/-- A further region around the lines. -/
def closeRegions : List Region :=
  [⟨"admin", .ofNat 3, .ofNat 6⟩]

theorem attach_accumulates_twoSteps :
    (∀ region, region ∈ closeRegions ++ wideRegions ++ wideRegions.reverse ↔
      region ∈ wideRegions ++ closeRegions) ∧
    attach closeRegions (attach wideRegions [taggedMethod]) =
      attach (closeRegions ++ wideRegions ++ wideRegions.reverse) [taggedMethod] ∧
    attach wideRegions (attach closeRegions [taggedMethod]) =
      attach (closeRegions ++ wideRegions ++ wideRegions.reverse) [taggedMethod] ∧
    (attach wideRegions [taggedMethod]).map (·.regionTags) = [["bucket", "list", "storage"]] := by
  have same : ∀ region, region ∈ closeRegions ++ wideRegions ++ wideRegions.reverse ↔
      region ∈ wideRegions ++ closeRegions := by
    intro region
    grind
  obtain ⟨each, _, inSteps⟩ := attach_accumulates [taggedMethod] wideRegions
  obtain ⟨inOrder, swapped⟩ := inSteps closeRegions _ same
  refine ⟨same, inOrder, swapped, ?_⟩
  cases each with
  | cons ofMethod _ =>
      obtain ⟨_, sorted, members⟩ := ofMethod
      have listed : (["bucket", "list", "storage"] : List String).Pairwise (· < ·) := by decide
      refine congrArg (· :: []) (sorted.eq_of_mem_iff listed fun tag => ?_)
      have told : tag ∈ (attachTo wideRegions taggedMethod).regionTags ↔
          (tag = "storage" ∨ tag = "list") ∨ "storage" = tag ∨ "bucket" = tag := by
        rw [members]
        simp [taggedMethod, wideRegions, LineNumber.ofNat]
      rw [told]
      grind

end SampleMethods.Region
