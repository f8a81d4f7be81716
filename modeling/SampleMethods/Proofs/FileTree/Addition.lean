import Mathlib.Data.List.Perm.Subperm
import SampleMethods.Proofs.FileTree.Collection

/-!
# Trees with more in them

A tree that is another one with further entries under new names, at any depth,
answers every question about a path as the other one does, unless there was
nothing at the path (`Adds.entry_cases`). So what was found in the smaller tree
is found in the larger one too (`Adds.selected_subperm`), and a file that was there
has the same text (`Adds.readText_eq`).

How directories are listed does not matter here either.
-/

set_option autoImplicit false

namespace SampleMethods.FileTree

open Text (Bytes)

namespace Entry

/-- The second entry is the first one with further entries in its directories, which may be listed
in another order. -/
inductive Adds : Entry → Entry → Prop where
  | rearranged {first second : Entry} : Rearranges first second → Adds first second
  | added {name : Bytes} {entry : Entry} {entries : List (Bytes × Entry)} :
      isName name = true → entry.isProper = true → name ∉ entries.map (·.1) →
        Adds (.directory entries) (.directory ((name, entry) :: entries))
  | inside {entry other : Entry} (name : Bytes) (before after : List (Bytes × Entry)) :
      Adds entry other →
        Adds (.directory (before ++ (name, entry) :: after))
          (.directory (before ++ (name, other) :: after))
  | trans {first second third : Entry} :
      Adds first second → Adds second third → Adds first third

theorem Adds.refl (entry : Entry) : Adds entry entry :=
  .rearranged (.refl entry)

/-- Something is added to directories only. -/
theorem Adds.sameKind {first second : Entry} (adds : Adds first second) :
    SameKind first second := by
  induction adds with
  | rearranged rearranges => exact rearranges.sameKind
  | added _ _ _ => exact .inr ⟨_, _, rfl, rfl⟩
  | inside _ _ _ _ => exact .inr ⟨_, _, rfl, rfl⟩
  | trans _ _ one other => exact one.trans other

theorem Adds.isProper {first second : Entry} (adds : Adds first second)
    (proper : first.isProper = true) : second.isProper = true := by
  induction adds with
  | rearranged rearranges => exact rearranges.isProper proper
  | added isName entryProper fresh =>
      obtain ⟨distinct, each⟩ := isProper_directory.mp proper
      refine isProper_directory.mpr
        ⟨List.nodup_cons.mpr ⟨fresh, distinct⟩, fun name entry member => ?_⟩
      rcases List.mem_cons.mp member with same | behind
      · cases same
        exact ⟨isName, entryProper⟩
      · exact each name entry behind
  | inside _ _ _ _ ih => exact isProper_replaced proper ih
  | trans _ _ first second => exact second (first proper)

/-- What the first search for an entry finds, the second one finds with something added. -/
def AddsFound (found other : Option Entry) : Prop :=
  ∀ entry, found = some entry → ∃ otherEntry, other = some otherEntry ∧ Adds entry otherEntry

theorem AddsFound.refl (found : Option Entry) : AddsFound found found :=
  fun entry isFound => ⟨entry, isFound, .refl entry⟩

theorem Adds.child? {first second : Entry} (adds : Adds first second)
    (proper : first.isProper = true) (name : Bytes) :
    AddsFound (first.child? name) (second.child? name) := by
  induction adds with
  | rearranged rearranges =>
      rintro entry found
      rcases rearranges.child? proper name with ⟨nothing, _⟩ | ⟨_, other, same, isOther, below⟩
      · cases nothing.symm.trans found
      · cases same.symm.trans found
        exact ⟨other, isOther, .rearranged below⟩
  | @added newName entry entries _ _ fresh =>
      -- What was found is under another name than the new entry, because that one is new.
      intro child found
      have isChild := (lookup_eq_some_iff_mem (isProper_directory.mp proper).1).mp found
      have differs : (name == newName) = false :=
        beq_eq_false_iff_ne.mpr fun same => fresh (same ▸ List.mem_map.mpr ⟨_, isChild, rfl⟩)
      refine ⟨child, ?_, .refl child⟩
      rw [Entry.child?, List.lookup_cons, differs]
      exact found
  | @inside entry other here before after adds _ =>
      simp only [Entry.child?, List.lookup_append, List.lookup_cons]
      cases before.lookup name with
      | some child => exact .refl _
      | none =>
          cases name == here with
          | true =>
              rintro _ ⟨⟩
              exact ⟨other, rfl, adds⟩
          | false => exact .refl _
  | trans earlier _ first second =>
      intro entry found
      obtain ⟨middle, isMiddle, fromEntry⟩ := first proper entry found
      obtain ⟨last, isLast, fromMiddle⟩ := second (earlier.isProper proper) middle isMiddle
      exact ⟨last, isLast, fromEntry.trans fromMiddle⟩

theorem Adds.descend? {first second : Entry} (adds : Adds first second)
    (proper : first.isProper = true) (names : List Bytes) :
    AddsFound (first.descend? names) (second.descend? names) := by
  induction names generalizing first second with
  | nil =>
      rintro _ ⟨⟩
      exact ⟨second, rfl, adds⟩
  | cons name names ih =>
      intro entry found
      obtain ⟨child, isChild, below⟩ := Option.bind_eq_some_iff.mp found
      obtain ⟨other, isOther, childAdds⟩ := adds.child? proper name child isChild
      obtain ⟨deep, isDeep, deepAdds⟩ :=
        ih childAdds (isProper_child? proper isChild) entry below
      exact ⟨deep, Option.bind_eq_some_iff.mpr ⟨other, isOther, isDeep⟩, deepAdds⟩

end Entry

open Entry (AddsFound)

/-- The second tree is the first one with further entries in its directories. -/
structure Adds (tree other : FileTree) : Prop where
  root : tree.root.Adds other.root
  workingDirectory : tree.workingDirectory = other.workingDirectory

/-! ## Following paths -/

/-- The second path leads where the first one does, with a proper entry there to which something is
added, and fails as it does, unless there was nothing at the first path. -/
inductive KeepsTarget : Except FileError Target → Except FileError Target → Prop where
  | notFound (other : Except FileError Target) : KeepsTarget (.error .notFound) other
  | absent (directory : Place) (name : Bytes) (other : Except FileError Target) :
      KeepsTarget (.ok (.absent directory name)) other
  | error (error : FileError) : KeepsTarget (.error error) (.error error)
  | found (place : Place) {entry other : Entry} (proper : entry.isProper = true)
      (adds : entry.Adds other) : KeepsTarget (.ok (.found place entry)) (.ok (.found place other))

section FollowingPaths

variable {tree other : FileTree} (adds : tree.Adds other) (proper : tree.isProper = true)

include adds proper

theorem Adds.entryAt? (place : Place) : AddsFound (tree.entryAt? place) (other.entryAt? place) :=
  adds.root.descend? proper place.reverse

/-- What is done at a link keeps the target if it does there. -/
theorem Adds.walk (follow : Bool)
    {onLink otherLink : Place → Path → List Bytes → Except FileError Target}
    (keepsLinks : ∀ place target steps,
      KeepsTarget (onLink place target steps) (otherLink place target steps))
    (place : Place) (steps : List Bytes) :
    KeepsTarget (tree.walk follow onLink place steps)
      (other.walk follow otherLink place steps) := by
  induction steps generalizing place with
  | nil =>
      simp only [FileTree.walk]
      cases found : tree.entryAt? place with
      | none => exact .notFound _
      | some entry =>
          obtain ⟨otherEntry, isOther, here⟩ := adds.entryAt? proper place entry found
          rw [isOther]
          exact .found place (Entry.isProper_descend? proper found) here
  | cons step steps ih =>
      simp only [FileTree.walk]
      cases found : tree.entryAt? place with
      | none => exact .notFound _
      | some entry =>
          obtain ⟨otherEntry, isOther, here⟩ := adds.entryAt? proper place entry found
          rw [isOther]
          simp only [← here.sameKind.isDirectory_eq]
          refine relates_ite (.error _) (relates_ite (ih place) ?_)
          refine relates_ite (ih place.tail) (relates_ite (.error _) ?_)
          cases isChild : entry.child? step with
          | none =>
              cases steps.isEmpty with
              | true => exact .absent place step _
              | false => exact .notFound _
          | some child =>
              have properHere := Entry.isProper_descend? proper found
              obtain ⟨otherChild, isOtherChild, below⟩ := here.child? properHere step child isChild
              rw [isOtherChild]
              -- Only directories differ, and whether the step ends in one is all that matters here.
              rcases below.sameKind with rfl | ⟨_, _, rfl, rfl⟩
              · cases child with
                | file _ => exact ih _
                | directory _ => exact ih _
                | link target =>
                    exact relates_ite (.found _ rfl (.refl _)) (keepsLinks place target steps)
              · exact ih _

theorem Adds.walkThrough (follow : Bool) (links : Nat) (place : Place)
    (steps : List Bytes) :
    KeepsTarget (tree.walkThrough follow links place steps)
      (other.walkThrough follow links place steps) := by
  induction links generalizing place steps with
  | zero => exact adds.walk proper follow (fun _ _ _ => .error _) place steps
  | succ links ih =>
      exact adds.walk proper follow (fun _ _ _ => relates_ite (.error _) (ih _ _)) place steps

theorem Adds.locate (follow : Bool) (path : Path) :
    KeepsTarget (tree.locate follow path) (other.locate follow path) := by
  simp only [FileTree.locate, adds.workingDirectory]
  exact relates_ite (.error _) (relates_ite (.error _) (adds.walkThrough proper follow _ _ _))

/-- **What is at a path stays there**, and so does every reason why there can be nothing. -/
theorem Adds.entry_cases (path : Path) :
    tree.entry path = .error .notFound ∨
      (∃ error, tree.entry path = .error error ∧ other.entry path = .error error) ∨
      ∃ entry otherEntry, tree.entry path = .ok entry ∧ other.entry path = .ok otherEntry ∧
        entry.Adds otherEntry := by
  have keeps := adds.locate proper true path
  simp only [FileTree.entry]
  generalize tree.locate true path = target, other.locate true path = otherTarget at keeps
  cases keeps with
  | notFound _ => exact .inl rfl
  | absent directory name _ => exact .inl rfl
  | error error => exact .inr (.inl ⟨error, rfl, rfl⟩)
  | found place properHere here => exact .inr (.inr ⟨_, _, rfl, rfl, here⟩)

/-! ## Questions about paths -/

/-- **The text of a file is the same if there was something at its path.** -/
theorem Adds.readText_eq {path : Path} (there : tree.entry path ≠ .error .notFound) :
    tree.readText path = other.readText path := by
  simp only [readText]
  rcases adds.entry_cases proper path with
    nothing | ⟨error, failed, same⟩ | ⟨entry, otherEntry, found, same, here⟩
  · exact absurd nothing there
  · rw [failed, same]
  · rw [found, same]
    rcases here.sameKind with rfl | ⟨_, _, rfl, rfl⟩
    · rfl
    · rfl

end FollowingPaths

/-! ## Searches -/

section Searches

variable (select : Path → Bool)

theorem selectedAt_subperm {first second : Entry} (adds : first.Adds second) (path : Path)
    (name : Bytes) :
    (selectedAt select path name first).Subperm (selectedAt select path name second) := by
  induction adds generalizing path name with
  | rearranged rearranges => exact (selectedAt_perm select rearranges path name).subperm
  | added _ _ _ =>
      simp only [selectedAt, selectedIn]
      split_ifs
      · exact .refl _
      · exact (List.sublist_append_right _ _).subperm
  | inside innerName before after _ ih =>
      simp only [selectedAt, selectedIn_eq_flatMap, List.flatMap_append, List.flatMap_cons]
      split_ifs
      · exact .refl _
      · exact (List.Subperm.refl _).append ((ih (path.child innerName) innerName).append (.refl _))
  | trans _ _ first second => exact (first path name).trans (second path name)

/-- **A search selects all that it selects in a tree with less in it.** -/
theorem Adds.selected_subperm {tree other : FileTree} (adds : tree.Adds other)
    (proper : tree.isProper = true) (path : Path) :
    (tree.selected select path).Subperm (other.selected select path) := by
  rw [selected, selected]
  rcases adds.entry_cases proper path with
    nothing | ⟨error, failed, same⟩ | ⟨entry, otherEntry, found, same, here⟩
  · rw [nothing]
    exact List.nil_subperm
  · rw [failed, same]
  · rw [found, same]
    refine ((List.mergeSort_perm _ _).subperm.trans ?_).trans
      (List.mergeSort_perm _ _).symm.subperm
    exact selectedAt_subperm select here path []

end Searches

end SampleMethods.FileTree
