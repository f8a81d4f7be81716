import SampleMethods.Proofs.FileTree.Collection
import SampleMethods.Proofs.Text.Split

/-!
# Where paths lead on

A path with a name behind it leads on from where the path leads
(`continues_walkThrough`). So in a directory that a path leads to, an entry stands at
the path with its name behind it (`standsAt_child`): the path leads to the entry, unless
it cannot be followed because a name in it is too long or holds a character that no name
may have.
-/

set_option autoImplicit false

namespace SampleMethods.FileTree

open Text (Bytes slash)

/-! ## More steps -/

/-- Further steps lead on from where the first steps lead. They lead nowhere from an entry that is
not there, and fail where the first steps fail. -/
inductive Continues (tree : FileTree) (further : List Bytes) :
    Except FileError Target → Except FileError Target → Prop where
  | found (links : Nat) {place : Place} {entry : Entry} : tree.entryAt? place = some entry →
      Continues tree further (.ok (.found place entry))
        (tree.walkThrough true links place further)
  | absent (directory : Place) (name : Bytes) :
      Continues tree further (.ok (.absent directory name)) (.error .notFound)
  | error (error : FileError) : Continues tree further (.error error) (.error error)

section MoreSteps

variable {tree : FileTree} {further : List Bytes} (nonempty : further ≠ [])

include nonempty

/-- Further steps lead on if they do so behind each link. -/
theorem continues_walk (links : Nat)
    {onLink : Place → Path → List Bytes → Except FileError Target}
    (isWalk : tree.walkThrough true links = tree.walk true onLink)
    (behindLink : ∀ place target steps,
      Continues tree further (onLink place target steps) (onLink place target (steps ++ further)))
    (place : Place) (steps : List Bytes) :
    Continues tree further (tree.walk true onLink place steps)
      (tree.walk true onLink place (steps ++ further)) := by
  induction steps generalizing place with
  | nil =>
      cases found : tree.entryAt? place with
      | some entry =>
          have here : tree.walk true onLink place [] = .ok (.found place entry) := by
            simp only [FileTree.walk, found]
          rw [here, List.nil_append, ← isWalk]
          exact .found links found
      | none =>
          obtain ⟨step, others, rfl⟩ := List.exists_cons_of_ne_nil nonempty
          simp only [List.nil_append, FileTree.walk, found]
          exact .error _
  | cons step steps ih =>
      rw [List.cons_append]
      simp only [FileTree.walk]
      cases tree.entryAt? place with
      | none => exact .error _
      | some entry =>
          refine relates_ite (.error _) (relates_ite (ih place) ?_)
          refine relates_ite (ih place.tail) (relates_ite (.error _) ?_)
          -- Only where nothing is under the last name does it matter that more steps follow.
          have notLast : (steps ++ further).isEmpty = false := by simp [nonempty]
          simp only [notLast]
          cases entry.child? step with
          | none =>
              cases steps.isEmpty with
              | true => exact .absent place step
              | false => exact .error _
          | some child =>
              cases child with
              | file _ => exact ih _
              | directory _ => exact ih _
              | link target => simpa using behindLink place target steps

/-- **Further steps lead on from where the first steps lead.** -/
theorem continues_walkThrough (links : Nat) (place : Place) (steps : List Bytes) :
    Continues tree further (tree.walkThrough true links place steps)
      (tree.walkThrough true links place (steps ++ further)) := by
  induction links generalizing place steps with
  | zero => exact continues_walk nonempty 0 rfl (fun _ _ _ => .error _) place steps
  | succ links ih =>
      refine continues_walk nonempty (links + 1) rfl (fun place target steps => ?_) place steps
      refine relates_ite (.error _) ?_
      rw [← List.append_assoc]
      exact ih _ _

end MoreSteps

/-! ## One more name -/

theorem Continues.of_found {tree : FileTree} {further : List Bytes} {place : Place}
    {entry : Entry} {last : Except FileError Target}
    (continues : Continues tree further (.ok (.found place entry)) last) :
    tree.entryAt? place = some entry ∧
      ∃ links, last = tree.walkThrough true links place further := by
  cases continues with
  | found links isThere => exact ⟨isThere, links, rfl⟩

section OneMoreName

variable {tree : FileTree} {links : Nat} {place there : Place} {steps : List Bytes}

theorem exists_walk (tree : FileTree) (links : Nat) :
    ∃ onLink, tree.walkThrough true links = tree.walk true onLink := by
  cases links with
  | zero => exact ⟨_, rfl⟩
  | succ links => exact ⟨_, rfl⟩

/-- A step can be taken only from a directory. -/
theorem exists_directory_of_walk {follow : Bool}
    {onLink : Place → Path → List Bytes → Except FileError Target} {target : Target}
    {step : Bytes} {others : List Bytes}
    (leads : tree.walk follow onLink place (step :: others) = .ok target) :
    ∃ entry, tree.entryAt? place = some entry ∧ ∃ entries, entry = .directory entries := by
  cases isThere : tree.entryAt? place with
  | none => simp [FileTree.walk, isThere] at leads
  | some entry =>
      refine ⟨entry, rfl, ?_⟩
      cases entry with
      | directory entries => exact ⟨entries, rfl⟩
      | file text => simp [FileTree.walk, isThere, Entry.isDirectory] at leads
      | link target => simp [FileTree.walk, isThere, Entry.isDirectory] at leads

/-- **What steps lead to, they lead to through a directory.** Wherever a row of steps is cut, the
front of it leads to a directory, and the rest leads on from there. -/
theorem exists_directory_of_walkThrough {step : Bytes} {further : List Bytes}
    {target : Target}
    (leads : tree.walkThrough true links place (steps ++ step :: further) = .ok target) :
    ∃ there entries, tree.walkThrough true links place steps =
        .ok (.found there (.directory entries)) ∧
      tree.entryAt? there = some (.directory entries) ∧
        ∃ left, tree.walkThrough true left there (step :: further) = .ok target := by
  have continues : Continues tree (step :: further) _ _ :=
    continues_walkThrough (List.cons_ne_nil step further) links place steps
  rw [leads] at continues
  cases isTarget : tree.walkThrough true links place steps with
  | error error =>
      rw [isTarget] at continues
      cases continues
  | ok before =>
      rw [isTarget] at continues
      cases before with
      | absent directory name => cases continues
      | found there entry =>
          obtain ⟨isThere, left, leadsOn⟩ := continues.of_found
          obtain ⟨onLink, isWalk⟩ := exists_walk tree left
          rw [isWalk] at leadsOn
          obtain ⟨_, isSame, entries, rfl⟩ := exists_directory_of_walk leadsOn.symm
          cases isThere.symm.trans isSame
          exact ⟨there, entries, rfl, isThere, left, by rw [isWalk, ← leadsOn]⟩

/-- A slash at the end of a path makes no difference where a directory is. -/
theorem walkThrough_of_slash {entries : List (Bytes × Entry)}
    (leads : tree.walkThrough true links place (steps ++ [[]]) =
      .ok (.found there (.directory entries))) :
    tree.walkThrough true links place steps = .ok (.found there (.directory entries)) := by
  obtain ⟨before, others, isTarget, isThere, left, leadsOn⟩ := exists_directory_of_walkThrough leads
  obtain ⟨onLink, isWalk⟩ := exists_walk tree left
  rw [isWalk] at leadsOn
  obtain ⟨rfl, rfl⟩ : before = there ∧ others = entries := by
    simpa [FileTree.walk, isThere, Entry.isDirectory] using leadsOn
  exact isTarget

theorem descend?_concat (entry : Entry) (names : List Bytes) (name : Bytes) :
    entry.descend? (names ++ [name]) =
      (entry.descend? names).bind fun deep => deep.child? name := by
  induction names generalizing entry with
  | nil => simp [Entry.descend?]
  | cons first names ih =>
      simp only [List.cons_append, Entry.descend?, Option.bind_assoc]
      exact congrArg _ (funext fun child => ih child)

/-- The entries of a directory are one name further down. -/
theorem entryAt?_name {entries : List (Bytes × Entry)}
    (isThere : tree.entryAt? place = some (.directory entries)) (name : Bytes) :
    tree.entryAt? (name :: place) = entries.lookup name := by
  rw [FileTree.entryAt?] at isThere
  rw [FileTree.entryAt?, List.reverse_cons, descend?_concat, isThere]
  rfl

/-- Where a name leads from a directory: to the entry under it, if there is one, unless it is too
long. -/
def underName (place : Place) (entries : List (Bytes × Entry)) (name : Bytes) :
    Except FileError Target :=
  if nameLimit < name.length then .error .nameTooLong
  else
    match entries.lookup name with
    | some child => .ok (.found (name :: place) child)
    | none => .ok (.absent place name)

theorem walkThrough_name {entries : List (Bytes × Entry)} {name : Bytes}
    (isThere : tree.entryAt? place = some (.directory entries)) (isName : isName name = true)
    (noLink : ∀ target, entries.lookup name ≠ some (.link target)) :
    tree.walkThrough true links place [name] = underName place entries name := by
  obtain ⟨onLink, isWalk⟩ := exists_walk tree links
  obtain ⟨nonempty, notHere, notUp, _⟩ := isName_iff.mp isName
  rw [isWalk, underName]
  simp only [FileTree.walk, isThere, Entry.isDirectory, Entry.child?]
  by_cases long : nameLimit < name.length
  · simp [nonempty, notHere, notUp, long]
  · cases isChild : entries.lookup name with
    | none => simp [nonempty, notHere, notUp, long]
    | some child =>
        have below : tree.entryAt? (name :: place) = some child :=
          (entryAt?_name isThere name).trans isChild
        cases child with
        | link target => exact absurd isChild (noLink target)
        | file text => simp [nonempty, notHere, notUp, long, below]
        | directory entries => simp [nonempty, notHere, notUp, long, below]

end OneMoreName

section StepsOfPaths

variable {path : Path} {name : Bytes}

theorem stepsOf_child_of_isOpenEnded (openEnded : path.IsOpenEnded) (isName : isName name = true) :
    stepsOf (path.child name) = stepsOf path ++ [name] := by
  have onePiece : Text.cutAt slash name = [name] :=
    Text.cutAt_of_not_mem (isName_iff.mp isName).2.2.2
  rw [stepsOf, child_text isName, openEnded.stem_eq, List.append_assoc, ← onePiece]
  exact Text.cutAt_append_cons path.text name

/-- The steps to a name behind a path are those of the path, except for a slash at its end, and
the name. -/
theorem exists_stepsOf_child (nonempty : path.text ≠ []) (isName : isName name = true) :
    ∃ steps, stepsOf (path.child name) = steps ++ [name] ∧
      (stepsOf path = steps ∨ stepsOf path = steps ++ [[]]) := by
  by_cases isSlash : path.text.getLast? = some slash
  · obtain ⟨front, isFront⟩ := List.getLast?_eq_some_iff.mp isSlash
    have onePiece : Text.cutAt slash name = [name] :=
      Text.cutAt_of_not_mem (isName_iff.mp isName).2.2.2
    have isStem : path.stem = front ++ [slash] := by rw [Path.stem, isSlash, isFront]; simp
    refine ⟨Text.cutAt slash front, ?_, .inr ?_⟩
    · rw [stepsOf, child_text isName, isStem, List.append_assoc, ← onePiece]
      exact Text.cutAt_append_cons front name
    · rw [stepsOf, isFront]
      exact Text.cutAt_append_cons front []
  · exact ⟨stepsOf path, stepsOf_child_of_isOpenEnded ⟨nonempty, isSlash⟩ isName, .inl rfl⟩

theorem startOf_child (nonempty : path.text ≠ []) (isName : isName name = true) (place : Place) :
    startOf (path.child name) place = startOf path place := by
  have sameHead : (path.child name).text.head? = path.text.head? := by
    obtain ⟨first, rest, isText⟩ := List.exists_cons_of_ne_nil nonempty
    rw [child_text isName, Path.stem, isText]
    split_ifs
    · rfl
    · rfl
  rw [startOf, startOf, Path.isAbsolute, Path.isAbsolute, sameHead]

end StepsOfPaths

/-! ## Paths of entries -/

/-- The path leads to the entry, or it ends with a name and cannot be followed to its end, though
not because something on the way is missing. -/
inductive StandsAt (tree : FileTree) (path : Path) (entry : Entry) : Prop where
  | found (place : Place) : tree.locate true path = .ok (.found place entry) →
      StandsAt tree path entry
  | unreachable (error : FileError) : path.IsOpenEnded → error ≠ .notFound →
      tree.locate true path = .error error → StandsAt tree path entry

section PathsOfEntries

variable {tree : FileTree} {path : Path}

theorem locate_eq_walkThrough (nonempty : path.text ≠ []) (noNul : 0 ∉ path.text) :
    tree.locate true path =
      tree.walkThrough true linkLimit (startOf path tree.workingDirectory) (stepsOf path) := by
  rw [locate, if_neg (by simpa using nonempty), if_neg (by simpa using noNul)]

theorem locate_of_nul (nul : 0 ∈ path.text) : tree.locate true path = .error .nulInPath := by
  have nonempty : path.text ≠ [] := fun isEmpty => by simp [isEmpty] at nul
  rw [locate, if_neg (by simpa using nonempty), if_pos (by simpa using nul)]

theorem text_of_locate {target : Target} (leads : tree.locate true path = .ok target) :
    path.text ≠ [] ∧ 0 ∉ path.text := by
  constructor
  · intro isEmpty
    simp [locate, isEmpty] at leads
  · intro nul
    cases (locate_of_nul nul).symm.trans leads

theorem StandsAt.entry_ne {entry : Entry} (standsAt : StandsAt tree path entry) :
    tree.entry path ≠ .error .notFound := by
  cases standsAt with
  | found place leads => simp [FileTree.entry, leads]
  | unreachable error _ other leads => simp [FileTree.entry, leads, other]

theorem exists_locate_of_entry {entry : Entry} (isEntry : tree.entry path = .ok entry) :
    ∃ place, tree.locate true path = .ok (.found place entry) := by
  rw [FileTree.entry] at isEntry
  cases leads : tree.locate true path with
  | error error =>
      rw [leads] at isEntry
      cases isEntry
  | ok target =>
      rw [leads] at isEntry
      cases target with
      | absent directory name => cases isEntry
      | found place there =>
          cases isEntry
          exact ⟨place, rfl⟩

theorem hasEntry_iff :
    tree.hasEntry path = true ↔
      ∃ place entry, tree.locate true path = .ok (.found place entry) := by
  constructor
  · intro isThere
    rw [FileTree.hasEntry] at isThere
    cases isEntry : tree.entry path with
    | error error =>
        rw [isEntry] at isThere
        cases isThere
    | ok entry =>
        obtain ⟨place, leads⟩ := exists_locate_of_entry isEntry
        exact ⟨place, entry, leads⟩
  · rintro ⟨place, entry, leads⟩
    rw [FileTree.hasEntry, FileTree.entry, leads]

section Children

variable {entries : List (Bytes × Entry)} {name : Bytes} (isName : isName name = true)

include isName

/-- From a directory that a path leads to, the path leads on by a name. -/
theorem locate_child_of_found {place : Place}
    (noLink : ∀ target, entries.lookup name ≠ some (.link target))
    (noNul : 0 ∉ (path.child name).text)
    (leads : tree.locate true path = .ok (.found place (.directory entries))) :
    tree.locate true (path.child name) = underName place entries name := by
  obtain ⟨nonempty, pathNoNul⟩ := text_of_locate leads
  obtain ⟨steps, childSteps, pathSteps⟩ := exists_stepsOf_child nonempty isName
  rw [locate_eq_walkThrough nonempty pathNoNul] at leads
  have stepsLead : tree.walkThrough true linkLimit (startOf path tree.workingDirectory) steps =
      .ok (.found place (.directory entries)) := by
    rcases pathSteps with same | slash
    · rw [← same]
      exact leads
    · rw [slash] at leads
      exact walkThrough_of_slash leads
  have continues : Continues tree [name] _ _ :=
    continues_walkThrough (List.cons_ne_nil name []) linkLimit
      (startOf path tree.workingDirectory) steps
  rw [stepsLead] at continues
  obtain ⟨isThere, left, leadsOn⟩ := continues.of_found
  rw [locate_eq_walkThrough (child_isOpenEnded isName path).1 noNul,
    startOf_child nonempty isName, childSteps, leadsOn]
  exact walkThrough_name isThere isName noLink

/-- A path that cannot be followed cannot be followed further. -/
theorem locate_child_of_error {error : FileError} (openEnded : path.IsOpenEnded)
    (noNul : 0 ∉ (path.child name).text) (fails : tree.locate true path = .error error) :
    tree.locate true (path.child name) = .error error := by
  have pathNoNul : 0 ∉ path.text := by
    rw [child_text isName, openEnded.stem_eq, List.mem_append, List.mem_append] at noNul
    exact fun nul => noNul (.inl (.inl nul))
  have continues : Continues tree [name] _ _ :=
    continues_walkThrough (List.cons_ne_nil name []) linkLimit
      (startOf path tree.workingDirectory) (stepsOf path)
  rw [← locate_eq_walkThrough openEnded.1 pathNoNul, fails,
    ← stepsOf_child_of_isOpenEnded openEnded isName, ← startOf_child openEnded.1 isName,
    ← locate_eq_walkThrough (child_isOpenEnded isName path).1 noNul] at continues
  generalize tree.locate true (path.child name) = last at continues
  cases continues with
  | error _ => rfl

/-- An entry of a directory stands at the path of the directory with its name. -/
theorem standsAt_child {child : Entry} (isChild : entries.lookup name = some child)
    (noLink : ∀ target, child ≠ .link target)
    (standsAt : StandsAt tree path (.directory entries)) :
    StandsAt tree (path.child name) child := by
  have openEnded := child_isOpenEnded isName path
  have noLink : ∀ target, entries.lookup name ≠ some (.link target) := fun target isLink =>
    noLink target (Option.some.inj (isChild.symm.trans isLink))
  by_cases nul : 0 ∈ (path.child name).text
  · exact .unreachable .nulInPath openEnded (by decide) (locate_of_nul nul)
  · cases standsAt with
    | found place leads =>
        have leadsOn := locate_child_of_found isName noLink nul leads
        rw [underName, isChild] at leadsOn
        split_ifs at leadsOn with long
        · exact .unreachable .nameTooLong openEnded (by decide) leadsOn
        · exact .found _ leadsOn
    | unreachable error pathOpen other fails =>
        exact .unreachable error openEnded other (locate_child_of_error isName pathOpen nul fails)

end Children

end PathsOfEntries

end SampleMethods.FileTree
