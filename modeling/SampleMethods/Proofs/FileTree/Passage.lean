import SampleMethods.Proofs.FileTree.Edit

/-!
# Paths through a changed tree

A path leads through directories and links only. So where a tree has the directories and
links that another one has (`KeepsWays`), a path leads to the same place in it, whatever
stands there then (`KeepsWays.locate`).
-/

set_option autoImplicit false

namespace SampleMethods.FileTree

open Text (Bytes point slash)

/-! ## What a path leads to -/

/-- The place that a path leads to, with an entry or without one. -/
def Target.place : Target → Place
  | .found place _ => place
  | .absent directory name => name :: directory

/-- What a path to a place leads to. -/
def targetAt (tree : FileTree) (place : Place) : Target :=
  match tree.entryAt? place with
  | some entry => .found place entry
  | none => .absent place.tail (place.head?.getD [])

section Targets

variable {tree : FileTree} {place : Place}

theorem targetAt_of_some {entry : Entry} (isThere : tree.entryAt? place = some entry) :
    tree.targetAt place = .found place entry := by
  rw [targetAt, isThere]

theorem targetAt_of_none {name : Bytes} (absent : tree.entryAt? (name :: place) = none) :
    tree.targetAt (name :: place) = .absent place name := by
  rw [targetAt, absent]
  rfl

/-- The directory around an entry. -/
theorem exists_directory_tail {entries : List (Bytes × Entry)}
    (isThere : tree.entryAt? place = some (.directory entries)) :
    ∃ others, tree.entryAt? place.tail = some (.directory others) := by
  cases place with
  | nil => exact ⟨entries, isThere⟩
  | cons name place => exact exists_directory_of_entryAt?_cons isThere

theorem exists_directory_root {entries : List (Bytes × Entry)}
    (isThere : tree.entryAt? place = some (.directory entries)) :
    ∃ others, tree.entryAt? [] = some (.directory others) := by
  induction place generalizing entries with
  | nil => exact ⟨entries, isThere⟩
  | cons name place ih =>
      obtain ⟨others, isDirectory⟩ := exists_directory_of_entryAt?_cons isThere
      exact ih isDirectory

end Targets

theorem place_targetAt (tree : FileTree) (name : Bytes) (place : Place) :
    (tree.targetAt (name :: place)).place = name :: place := by
  cases isThere : tree.entryAt? (name :: place) with
  | none => rw [targetAt_of_none isThere, Target.place]
  | some entry => rw [targetAt_of_some isThere, Target.place]

/-! ## One step of a path -/

/-- The step is a name that a directory may have. -/
structure IsEntryStep (step : Bytes) : Prop where
  notHere : (step.isEmpty || step == [point]) = false
  notUp : (step == [point, point]) = false
  notLong : ¬nameLimit < step.length

/-- How the steps of a path go on from a directory until they lead to the target. -/
inductive Onward (tree : FileTree) (follow : Bool)
    (onLink : Place → Path → List Bytes → Except FileError Target) (target : Target)
    (place : Place) : List Bytes → Prop where
  | stays {step : Bytes} {steps : List Bytes}
      (isHere : (step.isEmpty || step == [point]) = true)
      (leads : tree.walk follow onLink place steps = .ok target) :
      Onward tree follow onLink target place (step :: steps)
  | leaves {step : Bytes} {steps : List Bytes}
      (notHere : (step.isEmpty || step == [point]) = false)
      (isUp : (step == [point, point]) = true)
      (leads : tree.walk follow onLink place.tail steps = .ok target) :
      Onward tree follow onLink target place (step :: steps)
  | misses {step : Bytes} (isName : IsEntryStep step)
      (absent : tree.entryAt? (step :: place) = none) (isTarget : target = .absent place step) :
      Onward tree follow onLink target place [step]
  | stops {step : Bytes} {path : Path} (isName : IsEntryStep step)
      (isLink : tree.entryAt? (step :: place) = some (.link path)) (unfollowed : follow = false)
      (isTarget : target = .found (step :: place) (.link path)) :
      Onward tree follow onLink target place [step]
  | follows {step : Bytes} {steps : List Bytes} {path : Path}
      (isName : IsEntryStep step) (isLink : tree.entryAt? (step :: place) = some (.link path))
      (followed : steps = [] → follow = true) (leads : onLink place path steps = .ok target) :
      Onward tree follow onLink target place (step :: steps)
  | enters {step : Bytes} {steps : List Bytes} {entry : Entry}
      (isName : IsEntryStep step) (isThere : tree.entryAt? (step :: place) = some entry)
      (noLink : ∀ path, entry ≠ .link path)
      (leads : tree.walk follow onLink (step :: place) steps = .ok target) :
      Onward tree follow onLink target place (step :: steps)

section Stepping

variable {tree : FileTree} {follow : Bool}
  {onLink : Place → Path → List Bytes → Except FileError Target} {target : Target}
  {place : Place} {entries : List (Bytes × Entry)} {step : Bytes}
  {steps : List Bytes}

/-- A name that the directory does not have ends the path. -/
theorem walk_missing (isThere : tree.entryAt? place = some (.directory entries))
    (isName : IsEntryStep step) (absent : tree.entryAt? (step :: place) = none) :
    tree.walk follow onLink place (step :: steps) =
      if steps.isEmpty then .ok (.absent place step) else .error .notFound := by
  rw [entryAt?_name isThere] at absent
  simp only [walk, isThere, Entry.isDirectory, Entry.child?, isName.notHere, isName.notUp,
    isName.notLong, absent, Bool.not_true, Bool.false_eq_true, if_false]

/-- A link in the directory ends the path, or is followed. -/
theorem walk_link {path : Path} (isThere : tree.entryAt? place = some (.directory entries))
    (isName : IsEntryStep step) (isLink : tree.entryAt? (step :: place) = some (.link path)) :
    tree.walk follow onLink place (step :: steps) =
      if steps.isEmpty && !follow then .ok (.found (step :: place) (.link path))
      else onLink place path steps := by
  rw [entryAt?_name isThere] at isLink
  simp only [walk, isThere, Entry.isDirectory, Entry.child?, isName.notHere, isName.notUp,
    isName.notLong, isLink, Bool.not_true, Bool.false_eq_true, if_false]

/-- From any other entry of the directory the path goes on. -/
theorem walk_entry {entry : Entry} (isThere : tree.entryAt? place = some (.directory entries))
    (isName : IsEntryStep step) (isEntry : tree.entryAt? (step :: place) = some entry)
    (noLink : ∀ path, entry ≠ .link path) :
    tree.walk follow onLink place (step :: steps) =
      tree.walk follow onLink (step :: place) steps := by
  rw [entryAt?_name isThere] at isEntry
  cases entry with
  | link path => exact absurd rfl (noLink path)
  | file text =>
      simp only [walk, isThere, Entry.isDirectory, Entry.child?, isName.notHere, isName.notUp,
        isName.notLong, isEntry, Bool.not_true, Bool.false_eq_true, if_false]
  | directory inner =>
      simp only [walk, isThere, Entry.isDirectory, Entry.child?, isName.notHere, isName.notUp,
        isName.notLong, isEntry, Bool.not_true, Bool.false_eq_true, if_false]

/-- **A path goes on step by step.** -/
theorem walk_cons_iff (isThere : tree.entryAt? place = some (.directory entries)) :
    tree.walk follow onLink place (step :: steps) = .ok target ↔
      Onward tree follow onLink target place (step :: steps) := by
  constructor
  · intro leads
    cases here : (step.isEmpty || step == [point]) with
    | true =>
        simp only [walk, isThere, Entry.isDirectory, here, Bool.not_true, Bool.false_eq_true,
          if_false, if_true] at leads
        exact .stays here leads
    | false =>
      cases up : (step == [point, point]) with
      | true =>
          simp only [walk, isThere, Entry.isDirectory, here, up, Bool.not_true,
            Bool.false_eq_true, if_false, if_true] at leads
          exact .leaves here up leads
      | false =>
        by_cases long : nameLimit < step.length
        · simp only [walk, isThere, Entry.isDirectory, here, up, long, Bool.not_true,
            Bool.false_eq_true, if_false, if_true] at leads
          cases leads
        have isName : IsEntryStep step := ⟨here, up, long⟩
        cases isChild : tree.entryAt? (step :: place) with
        | none =>
            rw [walk_missing isThere isName isChild] at leads
            cases steps with
            | nil =>
                cases leads
                exact .misses isName isChild rfl
            | cons _ _ => cases leads
        | some child =>
            by_cases isLink : ∃ path, child = .link path
            · obtain ⟨path, rfl⟩ := isLink
              rw [walk_link isThere isName isChild] at leads
              by_cases isLast : (steps.isEmpty && !follow) = true
              · rw [if_pos isLast] at leads
                cases leads
                rw [Bool.and_eq_true, List.isEmpty_iff, Bool.not_eq_true'] at isLast
                obtain ⟨rfl, unfollowed⟩ := isLast
                exact .stops isName isChild unfollowed rfl
              · rw [if_neg isLast] at leads
                refine .follows isName isChild (fun isNil => ?_) leads
                simpa [isNil] using isLast
            · have noLink := not_exists.mp isLink
              rw [walk_entry isThere isName isChild noLink] at leads
              exact .enters isName isChild noLink leads
  · intro onward
    cases onward with
    | stays isHere leads =>
        simpa only [walk, isThere, Entry.isDirectory, isHere, Bool.not_true, Bool.false_eq_true,
          if_false, if_true] using leads
    | leaves notHere isUp leads =>
        simpa only [walk, isThere, Entry.isDirectory, notHere, isUp, Bool.not_true,
          Bool.false_eq_true, if_false, if_true] using leads
    | misses isName absent isTarget =>
        rw [walk_missing isThere isName absent, isTarget]
        rfl
    | stops isName isLink unfollowed isTarget =>
        rw [walk_link isThere isName isLink, isTarget, unfollowed]
        rfl
    | follows isName isLink followed leads =>
        have goesOn : ¬(steps.isEmpty && !follow) = true := by
          rw [Bool.and_eq_true, List.isEmpty_iff, Bool.not_eq_true']
          rintro ⟨isNil, unfollowed⟩
          cases unfollowed.symm.trans (followed isNil)
        rw [walk_link isThere isName isLink, if_neg goesOn]
        exact leads
    | enters isName isEntry noLink leads =>
        rw [walk_entry isThere isName isEntry noLink]
        exact leads

/-- The last step of a path leads to the place under its name, unless it is a link that is
followed. -/
theorem walk_last (isThere : tree.entryAt? place = some (.directory entries))
    (isName : IsEntryStep step)
    (noLink : follow = true → ∀ path, tree.entryAt? (step :: place) ≠ some (.link path)) :
    tree.walk follow onLink place [step] = .ok (tree.targetAt (step :: place)) := by
  refine (walk_cons_iff isThere).mpr ?_
  cases isEntry : tree.entryAt? (step :: place) with
  | none => exact .misses isName isEntry (targetAt_of_none isEntry)
  | some entry =>
      rw [targetAt_of_some isEntry]
      cases entry with
      | link path =>
          refine .stops isName isEntry ?_ rfl
          exact Bool.eq_false_iff.mpr fun followed => noLink followed path isEntry
      | file text =>
          refine .enters isName isEntry (fun _ same => by cases same) ?_
          simp only [walk, isEntry]
      | directory inner =>
          refine .enters isName isEntry (fun _ same => by cases same) ?_
          simp only [walk, isEntry]

end Stepping

/-! ## What a path leads to is there -/

/-- The target is as the tree has it: an entry at its place, or a directory without the name. -/
def Target.StandsIn (tree : FileTree) : Target → Prop
  | .found place entry => tree.entryAt? place = some entry
  | .absent directory name =>
    ∃ entries, tree.entryAt? directory = some (.directory entries) ∧ entries.lookup name = none

theorem standsIn_walk {tree : FileTree} {follow : Bool}
    {onLink : Place → Path → List Bytes → Except FileError Target} {target : Target}
    (behindLink : ∀ {place path steps}, onLink place path steps = .ok target →
      target.StandsIn tree)
    {place : Place} {steps : List Bytes}
    (leads : tree.walk follow onLink place steps = .ok target) : target.StandsIn tree := by
  induction steps generalizing place with
  | nil =>
      cases isThere : tree.entryAt? place with
      | none => simp [FileTree.walk, isThere] at leads
      | some entry =>
          simp only [FileTree.walk, isThere] at leads
          cases leads
          exact isThere
  | cons step steps ih =>
      obtain ⟨_, isThere, entries, rfl⟩ := exists_directory_of_walk leads
      cases (walk_cons_iff isThere).mp leads with
      | stays _ leads => exact ih leads
      | leaves _ _ leads => exact ih leads
      | misses _ absent isTarget =>
          rw [entryAt?_name isThere] at absent
          rw [isTarget]
          exact ⟨entries, isThere, absent⟩
      | stops _ isLink _ isTarget =>
          rw [isTarget]
          exact isLink
      | follows _ _ _ leads => exact behindLink leads
      | enters _ _ _ leads => exact ih leads

/-- **What a path leads to is as the tree has it.** -/
theorem standsIn_locate {tree : FileTree} {follow : Bool} {path : Path} {target : Target}
    (leads : tree.locate follow path = .ok target) : target.StandsIn tree := by
  have walks : ∀ links place steps, tree.walkThrough follow links place steps = .ok target →
      target.StandsIn tree := by
    intro links
    induction links with
    | zero =>
        intro place steps leads
        rw [walkThrough] at leads
        refine standsIn_walk (fun isError => ?_) leads
        cases isError
    | succ links ih =>
        intro place steps leads
        rw [walkThrough] at leads
        refine standsIn_walk (fun {place path steps} goesOn => ?_) leads
        split_ifs at goesOn
        exact ih _ _ goesOn
  rw [locate] at leads
  split_ifs at leads
  exact walks _ _ _ leads

/-! ## Links at the end of a path -/

/-- Steps do not lead to a link if each link is followed. -/
theorem ne_link_of_walk {tree : FileTree}
    {onLink : Place → Path → List Bytes → Except FileError Target} {target : Target}
    (behindLink : ∀ {place path steps}, onLink place path steps = .ok target →
      ∀ there link, target ≠ .found there (.link link))
    {place : Place} {steps : List Bytes}
    (noLink : steps = [] → ∀ link, tree.entryAt? place ≠ some (.link link))
    (leads : tree.walk true onLink place steps = .ok target) (there : Place) (link : Path) :
    target ≠ .found there (.link link) := by
  induction steps generalizing place with
  | nil =>
      cases isThere : tree.entryAt? place with
      | none => simp [FileTree.walk, isThere] at leads
      | some entry =>
          simp only [FileTree.walk, isThere] at leads
          cases leads
          rintro ⟨⟩
          exact noLink rfl link isThere
  | cons step steps ih =>
      obtain ⟨_, isThere, entries, rfl⟩ := exists_directory_of_walk leads
      cases (walk_cons_iff isThere).mp leads with
      | stays _ leads =>
          refine ih (fun _ path isLink => ?_) leads
          cases isThere.symm.trans isLink
      | leaves _ _ leads =>
          obtain ⟨others, isAbove⟩ := exists_directory_tail isThere
          refine ih (fun _ path isLink => ?_) leads
          cases isAbove.symm.trans isLink
      | misses _ _ isTarget =>
          rw [isTarget]
          intro same
          cases same
      | stops _ _ unfollowed _ => cases unfollowed
      | follows _ _ _ leads => exact behindLink leads there link
      | enters _ isEntry noLink leads =>
          refine ih (fun _ path isLink => ?_) leads
          rw [isEntry, Option.some.injEq] at isLink
          exact noLink path isLink

/-- **A path that is followed to its end does not lead to a link.** -/
theorem ne_link_of_locate {tree : FileTree} {path : Path} {target : Target}
    (leads : tree.locate true path = .ok target) (there : Place) (link : Path) :
    target ≠ .found there (.link link) := by
  have walks : ∀ links place steps, steps ≠ [] → tree.walkThrough true links place steps = .ok target →
      ∀ there link, target ≠ .found there (.link link) := by
    intro links
    induction links with
    | zero =>
        intro place steps nonempty leads
        rw [walkThrough] at leads
        refine ne_link_of_walk (fun isError => ?_) (fun isEmpty => absurd isEmpty nonempty) leads
        cases isError
    | succ links ih =>
        intro place steps nonempty leads
        rw [walkThrough] at leads
        refine ne_link_of_walk (fun goesOn => ?_) (fun isEmpty => absurd isEmpty nonempty) leads
        split_ifs at goesOn
        exact ih _ _ (List.append_ne_nil_of_left_ne_nil (Text.cutAt_ne_nil slash _) _) goesOn
  rw [locate] at leads
  split_ifs at leads
  exact walks _ _ _ (Text.cutAt_ne_nil slash path.text) leads there link

/-- A path leads to a link, or to the same if the link at its end is not followed. -/
inductive Unfollowed : Except FileError Target → Except FileError Target → Prop where
  | same (result : Except FileError Target) : Unfollowed result result
  | link (result : Except FileError Target) (place : Place) (target : Path) :
      Unfollowed result (.ok (.found place (.link target)))

theorem unfollowed_walk (tree : FileTree)
    {onLink otherLink : Place → Path → List Bytes → Except FileError Target}
    (behindLink : ∀ place target steps,
      Unfollowed (onLink place target steps) (otherLink place target steps))
    (place : Place) (steps : List Bytes) :
    Unfollowed (tree.walk true onLink place steps) (tree.walk false otherLink place steps) := by
  induction steps generalizing place with
  | nil => exact .same _
  | cons step steps ih =>
      simp only [FileTree.walk]
      cases tree.entryAt? place with
      | none => exact .same _
      | some entry =>
          refine relates_ite (.same _) (relates_ite (ih place) ?_)
          refine relates_ite (ih place.tail) (relates_ite (.same _) ?_)
          cases entry.child? step with
          | none => exact .same _
          | some child =>
              cases child with
              | file text => exact ih _
              | directory entries => exact ih _
              | link target =>
                  cases steps with
                  | nil => exact .link _ _ _
                  | cons next steps => exact behindLink place target (next :: steps)

/-- **What a path leads to, it leads to also if a link at its end is not followed**, unless there
is one. -/
theorem unfollowed_locate (tree : FileTree) (path : Path) :
    Unfollowed (tree.locate true path) (tree.locate false path) := by
  have walks : ∀ links place steps,
      Unfollowed (tree.walkThrough true links place steps)
        (tree.walkThrough false links place steps) := by
    intro links
    induction links with
    | zero => exact fun place steps => unfollowed_walk tree (fun _ _ _ => .same _) place steps
    | succ links ih =>
        exact fun place steps => unfollowed_walk tree
          (fun _ _ _ => relates_ite (.same _) (ih _ _)) place steps
  rw [locate, locate]
  exact relates_ite (.same _) (relates_ite (.same _) (walks _ _ _))

/-! ## Directories and links that stay -/

/-- The second tree has the directories and the links of the first one. -/
structure KeepsWays (tree other : FileTree) : Prop where
  workingDirectory : other.workingDirectory = tree.workingDirectory
  way : ∀ place entry, tree.seenAt? place = some entry → entry.isFile = false →
    other.seenAt? place = some entry

namespace KeepsWays

variable {tree other : FileTree} (keeps : tree.KeepsWays other) {place : Place}

include keeps

theorem directory {entries : List (Bytes × Entry)}
    (isThere : tree.entryAt? place = some (.directory entries)) :
    ∃ others, other.entryAt? place = some (.directory others) :=
  seenAt?_eq_directory_iff.mp
    (keeps.way place _ (seenAt?_eq_directory_iff.mpr ⟨entries, isThere⟩) rfl)

theorem link {target : Path} (isThere : tree.entryAt? place = some (.link target)) :
    other.entryAt? place = some (.link target) :=
  (seenAt?_eq_some_iff rfl).mp (keeps.way place _ ((seenAt?_eq_some_iff rfl).mpr isThere) rfl)

section Walking

variable {follow otherFollow : Bool} (followed : follow = true → otherFollow = true)

include followed

/-- Steps lead to the same place, if they do so behind each link. -/
theorem walk {onLink otherLink : Place → Path → List Bytes → Except FileError Target}
    {target : Target}
    (noLink : otherFollow = true → ∀ path, other.entryAt? target.place ≠ some (.link path))
    (behindLink : ∀ {place entries path steps},
      tree.entryAt? place = some (.directory entries) → onLink place path steps = .ok target →
        otherLink place path steps = .ok (other.targetAt target.place))
    {entries : List (Bytes × Entry)} {steps : List Bytes}
    (isThere : tree.entryAt? place = some (.directory entries))
    (leads : tree.walk follow onLink place steps = .ok target) :
    other.walk otherFollow otherLink place steps = .ok (other.targetAt target.place) := by
  induction steps generalizing place entries with
  | nil =>
      obtain ⟨others, isOther⟩ := keeps.directory isThere
      simp only [FileTree.walk, isThere] at leads
      cases leads
      simp only [FileTree.walk, isOther]
      rw [Target.place, targetAt_of_some isOther]
  | cons step steps ih =>
      obtain ⟨others, isOther⟩ := keeps.directory isThere
      cases (walk_cons_iff isThere).mp leads with
      | stays isHere leads => exact (walk_cons_iff isOther).mpr (.stays isHere (ih isThere leads))
      | leaves notHere isUp leads =>
          obtain ⟨around, isAround⟩ := exists_directory_tail isThere
          exact (walk_cons_iff isOther).mpr (.leaves notHere isUp (ih isAround leads))
      | misses isName _ isTarget =>
          rw [isTarget] at noLink ⊢
          exact walk_last isOther isName noLink
      | stops isName _ _ isTarget =>
          rw [isTarget] at noLink ⊢
          exact walk_last isOther isName noLink
      | follows isName isLink isFollowed leads =>
          exact (walk_cons_iff isOther).mpr (.follows isName (keeps.link isLink)
            (fun isNil => followed (isFollowed isNil)) (behindLink isThere leads))
      | @enters _ _ entry isName isEntry isNoLink leads =>
          cases entry with
          | link path => exact absurd rfl (isNoLink path)
          | directory inner =>
              obtain ⟨otherInner, isInner⟩ := keeps.directory isEntry
              exact (walk_cons_iff isOther).mpr
                (.enters isName isInner (fun _ same => by cases same) (ih isEntry leads))
          | file text =>
              -- Only the last step may lead to a file, and the other tree need not have it.
              cases steps with
              | cons next steps => simp [FileTree.walk, isEntry, Entry.isDirectory] at leads
              | nil =>
                  simp only [FileTree.walk, isEntry] at leads
                  cases leads
                  exact walk_last isOther isName noLink

/-- **Steps lead to the same place.** -/
theorem walkThrough {target : Target} {links : Nat} {entries : List (Bytes × Entry)}
    {steps : List Bytes}
    (noLink : otherFollow = true → ∀ path, other.entryAt? target.place ≠ some (.link path))
    (isThere : tree.entryAt? place = some (.directory entries))
    (leads : tree.walkThrough follow links place steps = .ok target) :
    other.walkThrough otherFollow links place steps = .ok (other.targetAt target.place) := by
  induction links generalizing place entries steps with
  | zero =>
      refine keeps.walk followed noLink (fun _ isError => ?_) isThere leads
      cases isError
  | succ links ih =>
      refine keeps.walk followed noLink (fun {place entries path steps} isDirectory goesOn => ?_)
        isThere leads
      cases isEmpty : path.text.isEmpty with
      | true =>
          rw [isEmpty] at goesOn
          cases goesOn
      | false =>
          rw [isEmpty] at goesOn
          have isStart : ∃ others, tree.entryAt? (startOf path place) = some (.directory others) := by
            rw [startOf]
            split_ifs
            · exact exists_directory_root isDirectory
            · exact ⟨entries, isDirectory⟩
          obtain ⟨others, isStart⟩ := isStart
          exact ih isStart goesOn

/-- **A path leads to the same place**, where directories and links are as they were. -/
theorem locate {path : Path} {target : Target} (leads : tree.locate follow path = .ok target)
    (noLink : otherFollow = true → ∀ path, other.entryAt? target.place ≠ some (.link path)) :
    other.locate otherFollow path = .ok (other.targetAt target.place) := by
  rw [FileTree.locate] at leads ⊢
  split_ifs at leads ⊢ with isEmpty nul
  obtain ⟨first, steps, isSteps⟩ :=
    List.exists_cons_of_ne_nil (Text.cutAt_ne_nil slash path.text)
  have isStart : ∃ entries, tree.entryAt? (startOf path tree.workingDirectory) =
      some (.directory entries) := by
    rw [stepsOf, isSteps] at leads
    cases limit : linkLimit with
    | zero => cases limit
    | succ links =>
        rw [limit] at leads
        obtain ⟨entry, isThere, entries, rfl⟩ := exists_directory_of_walk leads
        exact ⟨entries, isThere⟩
  obtain ⟨entries, isStart⟩ := isStart
  rw [keeps.workingDirectory]
  exact keeps.walkThrough followed noLink isStart leads

end Walking

end KeepsWays

section WithEntry

variable {tree : FileTree} {directory : Place} {name : Bytes}
  {entries : List (Bytes × Entry)}
  (isThere : tree.entryAt? directory = some (.directory entries))
  (wasFile : ∀ old, tree.entryAt? (name :: directory) = some old → old.isFile = true)

include wasFile

/-- A file has nothing in it. -/
theorem child?_of_wasFile : ∀ old, tree.entryAt? (name :: directory) = some old →
    ∀ other, old.child? other = none := by
  intro old isOld other
  have isFile := wasFile old isOld
  cases old with
  | file text => rfl
  | link target => cases isFile
  | directory inner => cases isFile

include isThere

/-- Directories and links stay where an entry takes the place of a file or of nothing. -/
theorem keepsWays_withEntry {entry : Entry} (bare : ∀ other, entry.child? other = none) :
    tree.KeepsWays (tree.withEntry directory name (some entry)) where
  workingDirectory := rfl
  way place seen isSeen noFile := by
    by_cases here : place = name :: directory
    · subst here
      obtain ⟨old, isOld, isShell⟩ := Option.map_eq_some_iff.mp isSeen
      have isFile := wasFile old isOld
      cases old with
      | file text =>
          cases isShell
          cases noFile
      | link target => cases isFile
      | directory inner => cases isFile
    · rw [seenAt?_withEntry isThere bare (child?_of_wasFile wasFile) here]
      exact isSeen

/-- A file makes no new directory and no new link. -/
theorem keepsWays_of_withEntry_file (text : Option String) :
    (tree.withEntry directory name (some (.file text))).KeepsWays tree where
  workingDirectory := rfl
  way place seen isSeen noFile := by
    by_cases here : place = name :: directory
    · subst here
      rw [seenAt?, entryAt?_withEntry_self isThere] at isSeen
      cases isSeen
      cases noFile
    · rw [← isSeen]
      exact (seenAt?_withEntry isThere (fun _ => rfl) (child?_of_wasFile wasFile) here).symm

end WithEntry

end SampleMethods.FileTree
