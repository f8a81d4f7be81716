import SampleMethods.Proofs.FileTree.Passage

/-!
# Making directories

Making a directory and those above it that are missing adds empty directories, to which the
path and the paths above it lead then, and changes nothing else, whether it succeeds or fails
half-way (`grows_treeAfter_makeDirectories`). Where the path leads to a directory, nothing is
done (`makeDirectories_of_leadsToDirectory`).
-/

set_option autoImplicit false

namespace SampleMethods

open Text (Bytes slash)

/-- The path is a parent of the other one, or of a parent of it, and so on. -/
inductive Path.IsAbove (above : Path) : Path → Prop where
  | parent {path : Path} : path.parent? = some above → IsAbove above path
  | further {path parent : Path} : path.parent? = some parent → IsAbove above parent →
      IsAbove above path

/-- The parent of a path is above it, and so is what is above the parent. -/
theorem Path.IsAbove.of_parent {path parent above : Path} (isParent : path.parent? = some parent)
    (isAbove : above = parent ∨ above.IsAbove parent) : above.IsAbove path := by
  rcases isAbove with rfl | further
  · exact .parent isParent
  · exact .further isParent further

namespace FileTree

/-- The path leads to a directory at the place. -/
def LeadsToDirectory (tree : FileTree) (path : Path) (place : Place) : Prop :=
  ∃ entries, tree.locate true path = .ok (.found place (.directory entries))

/-- The second tree is the first one with further directories, to which some of the paths lead. -/
structure Grows (paths : Path → Prop) (tree after : FileTree) : Prop where
  workingDirectory : after.workingDirectory = tree.workingDirectory
  refuses : after.refuses = tree.refuses
  grown : ∀ place, after.seenAt? place = tree.seenAt? place ∨
    tree.entryAt? place = none ∧ ∃ path, paths path ∧ after.LeadsToDirectory path place

section Growing

variable {paths others : Path → Prop} {tree middle after : FileTree} {path : Path} {place : Place}

theorem LeadsToDirectory.seen (leads : tree.LeadsToDirectory path place) :
    tree.seenAt? place = some (.directory []) := by
  obtain ⟨entries, leads⟩ := leads
  exact seenAt?_eq_directory_iff.mpr ⟨entries, standsIn_locate leads⟩

theorem LeadsToDirectory.of_keepsWays (leads : tree.LeadsToDirectory path place)
    (keeps : tree.KeepsWays after) : after.LeadsToDirectory path place := by
  obtain ⟨entries, leads⟩ := leads
  obtain ⟨inner, isThere⟩ := keeps.directory (standsIn_locate leads)
  refine ⟨inner, ?_⟩
  rw [← targetAt_of_some isThere]
  refine keeps.locate id leads fun _ target isLink => ?_
  cases isThere.symm.trans isLink

theorem Grows.refl (tree : FileTree) : Grows paths tree tree :=
  ⟨rfl, rfl, fun _ => .inl rfl⟩

theorem Grows.mono (grows : Grows paths tree after) (imply : ∀ path, paths path → others path) :
    Grows others tree after where
  workingDirectory := grows.workingDirectory
  refuses := grows.refuses
  grown place := by
    rcases grows.grown place with same | ⟨absent, path, isPath, leads⟩
    · exact .inl same
    · exact .inr ⟨absent, path, imply path isPath, leads⟩

theorem Grows.keepsWays (grows : Grows paths tree after) : tree.KeepsWays after where
  workingDirectory := grows.workingDirectory
  way place entry isSeen _ := by
    rcases grows.grown place with same | ⟨absent, _⟩
    · rw [same, isSeen]
    · rw [seenAt?, absent] at isSeen
      cases isSeen

theorem Grows.trans (first : Grows paths tree middle) (second : Grows paths middle after) :
    Grows paths tree after where
  workingDirectory := second.workingDirectory.trans first.workingDirectory
  refuses := second.refuses.trans first.refuses
  grown place := by
    rcases first.grown place with same | ⟨absent, path, isPath, leads⟩
    · rcases second.grown place with sameAgain | ⟨absent, path, isPath, leads⟩
      · exact .inl (sameAgain.trans same)
      · rw [← seenAt?_eq_none_iff, same, seenAt?_eq_none_iff] at absent
        exact .inr ⟨absent, path, isPath, leads⟩
    · exact .inr ⟨absent, path, isPath, leads.of_keepsWays second.keepsWays⟩

end Growing

/-! ## Slashes at the end of a path -/

theorem exists_silent_of_slashes {slashes : Bytes} (areSlashes : ∀ mark ∈ slashes, mark = slash)
    (text : Bytes) :
    ∃ silent, Text.cutAt slash (text ++ slashes) = Text.cutAt slash text ++ silent ∧
      ∀ piece ∈ silent, piece = [] := by
  induction slashes generalizing text with
  | nil => exact ⟨[], by simp, List.forall_mem_nil _⟩
  | cons mark slashes ih =>
      obtain ⟨rfl, othersAre⟩ := List.forall_mem_cons.mp areSlashes
      obtain ⟨silent, isCut, areSilent⟩ := ih othersAre []
      refine ⟨[] :: silent, ?_, List.forall_mem_cons.mpr ⟨rfl, areSilent⟩⟩
      rw [Text.cutAt_append_cons]
      exact congrArg _ isCut

theorem walk_of_silent {tree : FileTree}
    {onLink : Place → Path → List Bytes → Except FileError Target} {place : Place}
    {entries : List (Bytes × Entry)} (isThere : tree.entryAt? place = some (.directory entries))
    {silent : List Bytes} (areSilent : ∀ piece ∈ silent, piece = []) :
    tree.walk true onLink place silent = .ok (.found place (.directory entries)) := by
  induction silent with
  | nil => simp only [walk, isThere]
  | cons piece silent ih =>
      obtain ⟨rfl, othersAre⟩ := List.forall_mem_cons.mp areSilent
      have goesOn := ih othersAre
      simpa [walk, isThere, Entry.isDirectory] using goesOn

theorem text_eq_trimmed (path : Path) :
    path.text = (Change.trimmed path).text ++ path.text.rtakeWhile (· == slash) :=
  List.rdropWhile_append_rtakeWhile.symm

theorem eq_slash_of_mem_rtakeWhile (path : Path) :
    ∀ mark ∈ path.text.rtakeWhile (· == slash), mark = slash := by
  intro mark member
  simpa using List.mem_rtakeWhile_imp member

/-- Slashes at the end of a path are steps that lead nowhere else. -/
theorem exists_stepsOf_trimmed (path : Path) :
    ∃ silent, stepsOf path = stepsOf (Change.trimmed path) ++ silent ∧
      ∀ piece ∈ silent, piece = [] := by
  obtain ⟨silent, isCut, areSilent⟩ :=
    exists_silent_of_slashes (eq_slash_of_mem_rtakeWhile path) (Change.trimmed path).text
  rw [← text_eq_trimmed] at isCut
  exact ⟨silent, isCut, areSilent⟩

theorem startOf_trimmed {path : Path} (nonempty : (Change.trimmed path).text ≠ [])
    (place : Place) : startOf path place = startOf (Change.trimmed path) place := by
  obtain ⟨first, rest, isFirst⟩ := List.exists_cons_of_ne_nil nonempty
  rw [startOf, startOf, Path.isAbsolute, Path.isAbsolute, text_eq_trimmed path, isFirst]
  rfl

/-- A path that has a parent is not written with slashes only. -/
theorem trimmed_ne_nil_of_parent? {path parent : Path} (isParent : path.parent? = some parent) :
    (Change.trimmed path).text ≠ [] := by
  intro isEmpty
  obtain ⟨front, between, last, behind, isSteps, counts, _⟩ := Path.exists_steps_of_parent? isParent
  have isStep : last ∈ path.steps := by simp [isSteps]
  obtain ⟨silent, isCut, areSilent⟩ := exists_stepsOf_trimmed path
  have isPiece : last.text ∈ stepsOf path := by
    have isText := List.mem_map_of_mem (f := (·.text)) isStep
    cases absolute : path.isAbsolute with
    | true =>
        rw [Path.stepsOf_of_isAbsolute absolute]
        exact List.mem_cons_of_mem _ isText
    | false =>
        rw [Path.steps_map_text, absolute] at isText
        exact isText
  rw [isCut, stepsOf, isEmpty] at isPiece
  have noText : last.text = [] := by
    rcases List.mem_append.mp isPiece with inFront | inSilent
    · exact List.mem_singleton.mp inFront
    · exact areSilent _ inSilent
  exact Path.text_ne_nil_of_counts isStep counts noText

/-- A path leads where it leads without the slashes at its end, or on from there. -/
theorem continues_trimmed (tree : FileTree) {path : Path}
    (nonempty : (Change.trimmed path).text ≠ []) (noNul : 0 ∉ path.text) :
    tree.locate true path = tree.locate true (Change.trimmed path) ∨
      ∃ silent, (∀ piece ∈ silent, piece = []) ∧
        Continues tree silent (tree.locate true (Change.trimmed path)) (tree.locate true path) := by
  obtain ⟨silent, isSteps, areSilent⟩ := exists_stepsOf_trimmed path
  have isText := text_eq_trimmed path
  have pathNonempty : path.text ≠ [] := by
    rw [isText]
    exact List.append_ne_nil_of_left_ne_nil nonempty _
  have trimmedNoNul : 0 ∉ (Change.trimmed path).text := fun nul =>
    noNul (isText ▸ List.mem_append_left _ nul)
  rw [locate_eq_walkThrough nonempty trimmedNoNul, locate_eq_walkThrough pathNonempty noNul,
    startOf_trimmed nonempty, isSteps]
  cases silent with
  | nil => exact .inl (by rw [List.append_nil])
  | cons piece silent =>
      exact .inr ⟨_, areSilent, continues_walkThrough (List.cons_ne_nil _ _) _ _ _⟩

/-- Slashes at the end of the path of a directory make no difference. -/
theorem LeadsToDirectory.of_trimmed {tree : FileTree} {path : Path} {place : Place}
    (leads : tree.LeadsToDirectory (Change.trimmed path) place) :
    tree.LeadsToDirectory path place := by
  obtain ⟨entries, leads⟩ := leads
  obtain ⟨nonempty, noNul⟩ := text_of_locate leads
  have pathNoNul : 0 ∉ path.text := by
    rw [text_eq_trimmed, List.mem_append]
    rintro (inFront | isMark)
    · exact noNul inFront
    · cases eq_slash_of_mem_rtakeWhile path _ isMark
  refine ⟨entries, ?_⟩
  rcases continues_trimmed tree nonempty pathNoNul with same | ⟨silent, areSilent, continues⟩
  · rw [same, leads]
  · rw [leads] at continues
    obtain ⟨isThere, links, isLast⟩ := continues.of_found
    obtain ⟨onLink, isWalk⟩ := exists_walk tree links
    rw [isLast, isWalk, walk_of_silent isThere areSilent]

/-- Without the slashes at its end the path of a directory leads to something. -/
theorem LeadsToDirectory.exists_found_trimmed {tree : FileTree} {path : Path} {place : Place}
    (leads : tree.LeadsToDirectory path place) (nonempty : (Change.trimmed path).text ≠ []) :
    ∃ there entry, tree.locate false (Change.trimmed path) = .ok (.found there entry) := by
  obtain ⟨entries, leads⟩ := leads
  have followed : ∃ there entry,
      tree.locate true (Change.trimmed path) = .ok (.found there entry) := by
    rcases continues_trimmed tree nonempty (text_of_locate leads).2 with same | ⟨_, _, continues⟩
    · exact ⟨_, _, same ▸ leads⟩
    · generalize tree.locate true (Change.trimmed path) = result at continues ⊢
      generalize tree.locate true path = last at continues leads
      cases continues with
      | found links isThere => exact ⟨_, _, rfl⟩
      | absent directory name => cases leads
      | error error => cases leads
  obtain ⟨there, entry, followed⟩ := followed
  have unfollowed := unfollowed_locate tree (Change.trimmed path)
  rw [followed] at unfollowed
  generalize tree.locate false (Change.trimmed path) = result at unfollowed ⊢
  cases unfollowed with
  | same => exact ⟨there, entry, rfl⟩
  | link other target => exact ⟨other, .link target, rfl⟩

/-! ## Steps of a change -/

section Changes

variable {tree after : FileTree}

/-- What is done in two parts is done in the first part and then in the second one. -/
theorem exists_of_bind_ok {ε σ α β : Type} {first : EStateM ε σ α} {next : α → EStateM ε σ β}
    {state after : σ} {result : β} (isDone : (first >>= next) state = .ok result after) :
    ∃ value between, first state = .ok value between ∧ next value between = .ok result after := by
  change EStateM.bind first next state = _ at isDone
  rw [EStateM.bind] at isDone
  cases isFirst : first state with
  | ok value between =>
      rw [isFirst] at isDone
      exact ⟨value, between, rfl, isDone⟩
  | error error between =>
      rw [isFirst] at isDone
      cases isDone

theorem bind_of_ok {ε σ α β : Type} {first : EStateM ε σ α} {next : α → EStateM ε σ β}
    {state between : σ} {value : α} (isDone : first state = .ok value between) :
    (first >>= next) state = next value between := by
  change EStateM.bind first next state = _
  rw [EStateM.bind, isDone]

/-- The tree as a change leaves it, be it done or given up. -/
def treeAfter {ε α : Type} : EStateM.Result ε FileTree α → FileTree
  | .ok _ after => after
  | .error _ after => after

theorem Grows.bind {ε α β : Type} {paths : Path → Prop} {first : EStateM ε FileTree α}
    {next : α → EStateM ε FileTree β} (grows : Grows paths tree (treeAfter (first tree)))
    (further : ∀ value between, first tree = .ok value between →
      Grows paths between (treeAfter (next value between))) :
    Grows paths tree (treeAfter ((first >>= next) tree)) := by
  change Grows paths tree (treeAfter (EStateM.bind first next tree))
  rw [EStateM.bind]
  cases isFirst : first tree with
  | ok value between =>
      rw [isFirst] at grows
      exact grows.trans (further value between isFirst)
  | error error between =>
      rw [isFirst] at grows
      exact grows

/-- Looking where a path leads changes nothing. -/
theorem locate_eq (tree : FileTree) (follow : Bool) (path : Path) :
    Change.locate follow path tree =
      match tree.locate follow path with
      | .ok target => .ok target tree
      | .error error => .error error tree := by
  change (ofExcept (tree.locate follow path) : Change Target) tree = _
  cases tree.locate follow path with
  | ok target => rfl
  | error error => rfl

theorem locate_of_ok {follow : Bool} {path : Path} {target : Target}
    (isDone : Change.locate follow path tree = .ok target after) :
    tree.locate follow path = .ok target ∧ after = tree := by
  rw [locate_eq] at isDone
  cases found : tree.locate follow path with
  | ok other =>
      rw [found] at isDone
      cases isDone
      exact ⟨rfl, rfl⟩
  | error error =>
      rw [found] at isDone
      cases isDone

theorem permit_eq (tree : FileTree) (operation : Operation) :
    Change.permit operation tree =
      match tree.refuses operation with
      | none => .ok () tree
      | some error => .error error tree := by
  rw [Change.permit, bind_of_ok (show (get : Change FileTree) tree = .ok tree tree from rfl)]
  cases tree.refuses operation with
  | none => rfl
  | some error => rfl

/-- A directory is made where there was nothing, or nothing is done. -/
theorem makeDirectory_eq (tree : FileTree) (path : Path) :
    Change.makeDirectory path tree =
      match tree.locate false (Change.trimmed path) with
      | .ok (.absent directory name) =>
        match tree.refuses (.makeDirectory path) with
        | none => .ok () (tree.withEntry directory name (some (.directory [])))
        | some error => .error error tree
      | .ok (.found ..) => .error .alreadyExists tree
      | .error error => .error error tree := by
  change EStateM.bind _ _ tree = _
  rw [EStateM.bind, locate_eq]
  cases tree.locate false (Change.trimmed path) with
  | error error => rfl
  | ok target =>
      cases target with
      | found place entry => rfl
      | absent directory name =>
          change EStateM.bind _ _ tree = _
          rw [EStateM.bind, permit_eq]
          cases tree.refuses (.makeDirectory path) with
          | none => rfl
          | some error => rfl

/-- Where nothing is, a directory may be put, to which the path leads then. -/
theorem grows_withEntry {path : Path} {directory : Place} {name : Bytes}
    (leads : tree.locate false (Change.trimmed path) = .ok (.absent directory name)) :
    Grows (· = path) tree (tree.withEntry directory name (some (.directory []))) := by
  obtain ⟨entries, isThere, noEntry⟩ := standsIn_locate leads
  have absent : tree.entryAt? (name :: directory) = none := by
    rw [entryAt?_name isThere, noEntry]
  have bare : ∀ other, (Entry.directory []).child? other = none := fun _ => rfl
  have isMade := @entryAt?_withEntry_self _ _ name _ isThere (.directory [])
  refine ⟨rfl, rfl, fun place => ?_⟩
  by_cases here : place = name :: directory
  · refine .inr ⟨here ▸ absent, path, rfl, ?_⟩
    have keeps : tree.KeepsWays (tree.withEntry directory name (some (.directory []))) :=
      keepsWays_withEntry isThere (fun old isOld => by cases absent.symm.trans isOld) bare
    have leadsThen : (tree.withEntry directory name (some (.directory []))).locate true
        (Change.trimmed path) = _ :=
      keeps.locate (fun _ => rfl) leads fun _ target isLink => by cases isMade.symm.trans isLink
    rw [Target.place, targetAt_of_some isMade] at leadsThen
    rw [here]
    exact LeadsToDirectory.of_trimmed ⟨[], leadsThen⟩
  · exact .inl (seenAt?_withEntry isThere bare
      (fun old isOld => by cases absent.symm.trans isOld) here)

theorem grows_treeAfter_makeDirectory (tree : FileTree) (path : Path) :
    Grows (· = path) tree (treeAfter (Change.makeDirectory path tree)) := by
  rw [makeDirectory_eq]
  split
  · rename_i directory name leads
    split
    · exact grows_withEntry leads
    · exact .refl tree
  · exact .refl tree
  · exact .refl tree

/-- Whether a directory is made or not, nothing else changes. -/
theorem grows_treeAfter_tryMake (tree : FileTree) (path : Path) :
    Grows (· = path) tree (treeAfter (Change.makeDirectoriesUpTo.tryMake path tree)) := by
  have grows := grows_treeAfter_makeDirectory tree path
  rw [Change.makeDirectoriesUpTo.tryMake]
  cases made : Change.makeDirectory path tree with
  | ok result between =>
      rw [made] at grows
      exact grows
  | error error between =>
      rw [made] at grows
      dsimp only
      split_ifs
      · exact grows
      · exact grows

end Changes

/-! ## A directory and those above it -/

theorem exists_parent_of_not_top {path : Path}
    (notTop : ¬(path.text.isEmpty || path.parent?.isNone) = true) :
    ∃ parent, path.parent? = some parent := by
  simp only [Bool.or_eq_true, not_or, Bool.not_eq_true] at notTop
  exact Option.isSome_iff_exists.mp (by simpa using notTop.2)

theorem grows_treeAfter_makeDirectoriesUpTo (rounds : ℕ) (tree : FileTree) (path : Path) :
    Grows (fun above => above = path ∨ above.IsAbove path) tree
      (treeAfter (Change.makeDirectoriesUpTo rounds path tree)) := by
  induction rounds generalizing path tree with
  | zero => exact .refl tree
  | succ rounds ih =>
      have once : ∀ tree, Grows (fun above => above = path ∨ above.IsAbove path) tree
          (treeAfter (Change.makeDirectoriesUpTo.tryMake path tree)) := fun tree =>
        (grows_treeAfter_tryMake tree path).mono fun above => Or.inl
      rw [Change.makeDirectoriesUpTo]
      by_cases isTop : (path.text.isEmpty || path.parent?.isNone) = true
      · rw [if_pos isTop]
        exact .refl tree
      rw [if_neg isTop]
      obtain ⟨parent, isParent⟩ := exists_parent_of_not_top isTop
      have higher : ∀ tree, Grows (fun above => above = path ∨ above.IsAbove path) tree
          (treeAfter (Change.makeDirectoriesUpTo rounds (path.parent?.getD path) tree)) := by
        intro tree
        rw [isParent]
        exact (ih tree parent).mono fun above isAbove => .inr (.of_parent isParent isAbove)
      -- Only where the parent is missing is more done than one try.
      refine (once tree).bind fun outcome tried _ => ?_
      cases outcome with
      | none => exact .refl tried
      | some error =>
          cases error with
          | notFound =>
              refine (higher tried).bind fun _ above _ => (once above).bind fun last finished _ => ?_
              cases last with
              | none => exact .refl finished
              | some error => exact .refl finished
          | _ => exact .refl tried

/-- **Making a directory and those above it changes nothing else**, also if it fails half-way. -/
theorem grows_treeAfter_makeDirectories (tree : FileTree) (path : Path) :
    Grows (fun above => above = path ∨ above.IsAbove path) tree
      (treeAfter (Change.makeDirectories path tree)) :=
  grows_treeAfter_makeDirectoriesUpTo _ tree path

/-- **Where there is a directory, none is made.** -/
theorem makeDirectories_of_leadsToDirectory {path : Path} {tree : FileTree} {place : Place}
    (leads : tree.LeadsToDirectory path place) : Change.makeDirectories path tree = .ok () tree := by
  rw [Change.makeDirectories, Change.makeDirectoriesUpTo]
  by_cases isTop : (path.text.isEmpty || path.parent?.isNone) = true
  · rw [if_pos isTop]
    rfl
  rw [if_neg isTop]
  obtain ⟨parent, isParent⟩ := exists_parent_of_not_top isTop
  have isTried : Change.makeDirectoriesUpTo.tryMake path tree = .ok none tree := by
    obtain ⟨there, entry, found⟩ := leads.exists_found_trimmed (trimmed_ne_nil_of_parent? isParent)
    obtain ⟨entries, isDirectory⟩ := leads
    simp [Change.makeDirectoriesUpTo.tryMake, makeDirectory_eq, found, FileTree.isDirectory,
      FileTree.entry, isDirectory, Entry.isDirectory]
  exact bind_of_ok isTried

end FileTree

end SampleMethods
