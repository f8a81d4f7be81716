import SampleMethods.Proofs.FileTree.Growth

/-!
# Changes as a whole or not at all

A change that fails may have been made in part, as when only some of the directories on a
path can be made. Moving a file looks first and changes the tree last, so it is made as a whole
or not at all (`isAtomic_moveFile`). Opening a file only looks as long as it fails
(`observes_openFile`), but a text that is refused behind that is put there in part
(`writeText_eq`).
-/

set_option autoImplicit false

namespace SampleMethods.FileTree

open Text (Bytes)

/-! ## Looking before changing -/

variable {α β : Type}

/-- The change only looks at the tree. -/
def Observes (change : Change α) : Prop :=
  ∀ tree, treeAfter (change tree) = tree

theorem observes_locate (follow : Bool) (path : Path) : Observes (Change.locate follow path) := by
  intro tree
  rw [locate_eq]
  split
  · rfl
  · rfl

theorem observes_permit (operation : Operation) : Observes (Change.permit operation) := by
  intro tree
  rw [permit_eq]
  split
  · rfl
  · rfl

theorem Observes.bind {first : Change α} {next : α → Change β} (observes : Observes first)
    (further : ∀ value, Observes (next value)) : Observes (first >>= next) := by
  intro tree
  change treeAfter (EStateM.bind first next tree) = tree
  have same := observes tree
  rw [EStateM.bind]
  cases isDone : first tree with
  | ok value between =>
      rw [isDone] at same
      exact (further value between).trans same
  | error error between =>
      rw [isDone] at same
      exact same

theorem observes_pure (value : α) : Observes (pure value : Change α) :=
  fun _ => rfl

theorem observes_throw (error : FileError) : Observes (throw error : Change α) :=
  fun _ => rfl

theorem observes_throw_bind (error : FileError) (next : α → Change β) :
    Observes ((throw error : Change α) >>= next) :=
  fun _ => rfl

theorem Observes.discard {change : Change α} (observes : Observes change) :
    Observes (discard change) := by
  intro tree
  have same := observes tree
  change treeAfter (EStateM.map _ change tree) = tree
  rw [EStateM.map]
  cases isResult : change tree with
  | ok value between =>
      rw [isResult] at same
      exact same
  | error error between =>
      rw [isResult] at same
      exact same

/-- Nothing but what the file system refuses is found out by opening a file. -/
theorem observes_openFile (path : Path) : Observes (Change.openFile path) := by
  have opens (place : Place × Bytes) : Observes (do
      Change.permit (.create path)
      return place) :=
    (observes_permit _).bind fun _ => observes_pure _
  rw [Change.openFile]
  dsimp only
  split
  · exact (observes_locate false _).discard.bind fun _ => observes_throw_bind _ _
  · refine (observes_locate true path).bind fun target => ?_
    split
    · exact observes_throw _
    · exact observes_throw _
    · exact opens _
    · exact opens _

/-- A text is put into the file that has been opened, as a whole or in part. -/
theorem writeText_eq (tree : FileTree) (path : Path) (text : String) :
    Change.writeText path text tree =
      match Change.openFile path tree with
      | .ok (directory, name) _ =>
        match tree.refuses (.fill path text) with
        | none => .ok () (tree.withEntry directory name (some (.file (some text))))
        | some error =>
          .error error (tree.withEntry directory name (some (.file (tree.leaves path text))))
      | .error error _ => .error error tree := by
  have same := observes_openFile path tree
  rw [Change.writeText]
  change EStateM.bind (Change.openFile path) _ tree = _
  rw [EStateM.bind]
  cases isOpen : Change.openFile path tree with
  | error error between =>
      rw [isOpen] at same
      rw [show between = tree from same]
  | ok place between =>
      rw [isOpen] at same
      obtain rfl : between = tree := same
      dsimp only
      rw [bind_of_ok (show (get : Change FileTree) between = .ok between between from rfl)]
      cases between.refuses (.fill path text) with
      | none => rfl
      | some error => rfl

end SampleMethods.FileTree
