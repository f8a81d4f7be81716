import SampleMethods.Proofs.FileTree.Reach
import SampleMethods.Proofs.Path.Below

/-!
# Two paths to one place

A search that starts at one of two paths to a directory reaches what one reaches that
starts at the other, behind the same names, and either way it is found in the same
place (`Reaches.exists_below`).
-/

set_option autoImplicit false

namespace SampleMethods.FileTree

open Text (Bytes)

variable {tree : FileTree} {path first second found : Path} {name : Bytes}

/-- Both paths lead to the same, or fail in the same way. -/
structure LeadAlike (tree : FileTree) (first second : Path) : Prop where
  nul : 0 ∈ first.text ↔ 0 ∈ second.text
  locate : tree.locate true first = tree.locate true second

namespace LeadAlike

theorem of_found {target : Target} (firstLeads : tree.locate true first = .ok target)
    (secondLeads : tree.locate true second = .ok target) : LeadAlike tree first second where
  nul := iff_of_false (text_of_locate firstLeads).2 (text_of_locate secondLeads).2
  locate := firstLeads.trans secondLeads.symm

theorem readText (alike : LeadAlike tree first second) :
    tree.readText first = tree.readText second := by
  rw [FileTree.readText, FileTree.readText, FileTree.entry, FileTree.entry, alike.locate]

end LeadAlike

theorem nul_mem_child (isName : isName name = true) :
    0 ∈ (path.child name).text ↔ 0 ∈ path.text ∨ 0 ∈ name := by
  rw [child_text isName, List.mem_append, Path.stem]
  split_ifs
  · rfl
  · simp

/-- Two paths that lead alike to a directory lead alike with a name behind them. -/
theorem LeadAlike.child {entries : List (Bytes × Entry)} (alike : LeadAlike tree first second)
    (isName : isName name = true) (noLink : ∀ target, entries.lookup name ≠ some (.link target))
    (firstStands : StandsAt tree first (.directory entries))
    (secondStands : StandsAt tree second (.directory entries)) :
    LeadAlike tree (first.child name) (second.child name) := by
  have sameNul : 0 ∈ (first.child name).text ↔ 0 ∈ (second.child name).text := by
    rw [nul_mem_child isName, nul_mem_child isName, alike.nul]
  refine ⟨sameNul, ?_⟩
  by_cases nul : 0 ∈ (first.child name).text
  · rw [locate_of_nul nul, locate_of_nul (sameNul.mp nul)]
  · have secondNoNul : 0 ∉ (second.child name).text := fun isNul => nul (sameNul.mpr isNul)
    cases firstStands with
    | found place leads =>
        rw [locate_child_of_found isName noLink nul leads,
          locate_child_of_found isName noLink secondNoNul (alike.locate.symm.trans leads)]
    | unreachable error firstOpen _ fails =>
        cases secondStands with
        | found place leads => cases fails.symm.trans (alike.locate.trans leads)
        | unreachable _ secondOpen _ _ =>
            rw [locate_child_of_error isName firstOpen nul fails,
              locate_child_of_error isName secondOpen secondNoNul (alike.locate.symm.trans fails)]

/-- **What is reached is reached behind a row of names**, from the other path as well, and it is
found in the same place. -/
theorem Reaches.exists_below {entry foundEntry : Entry} (proper : entry.isProper = true)
    (reaches : Reaches first entry found foundEntry) (alike : LeadAlike tree first second)
    (firstStands : StandsAt tree first entry) (secondStands : StandsAt tree second entry) :
    ∃ names, (∀ name ∈ names, isName name = true) ∧ (names = [] → foundEntry = entry) ∧
      found = first.below names ∧ Reaches second entry (second.below names) foundEntry ∧
      LeadAlike tree found (second.below names) := by
  induction reaches generalizing second with
  | here path entry =>
      exact ⟨[], List.forall_mem_nil _, fun _ => rfl, rfl, .here second entry, alike⟩
  | @inside first found name entries child foundEntry member visited _ ih =>
      obtain ⟨distinct, each⟩ := Entry.isProper_directory.mp proper
      obtain ⟨isName, childProper⟩ := each name child member
      have isChild := (lookup_eq_some_iff_mem distinct).mpr member
      have noLink : ∀ target, child ≠ .link target := by
        rintro target rfl
        cases visited
      have noLinkThere : ∀ target, entries.lookup name ≠ some (.link target) := fun target isLink =>
        noLink target (Option.some.inj (isChild.symm.trans isLink))
      obtain ⟨names, areNames, _, isFound, further, foundAlike⟩ := ih childProper
        (alike.child isName noLinkThere firstStands secondStands)
        (standsAt_child isName isChild noLink firstStands)
        (standsAt_child isName isChild noLink secondStands)
      have notNil : name :: names = [] → foundEntry = .directory entries :=
        fun isNil => absurd isNil (List.cons_ne_nil name names)
      exact ⟨name :: names, List.forall_mem_cons.mpr ⟨isName, areNames⟩, notNil, isFound,
        .inside member visited further, foundAlike⟩

end SampleMethods.FileTree
