import SampleMethods.Proofs.FileTree.Resolution
import SampleMethods.Proofs.Path.Parent

/-!
# File trees without links

Where there are no links, an absolute path that leads to an entry leads where its
components say: a name goes down, `..` goes up (`place_of_locate`). The parent of
such a path leads to the directory from which the last component goes on
(`exists_locate_parent`).
-/

set_option autoImplicit false

namespace SampleMethods.FileTree

open Text (Bytes point slash)

/-! ## Entries without links -/

namespace Entry

mutual

/-- Whether there is no link in the entry. -/
def isLinkFree : Entry → Bool
  | .file _ => true
  | .directory entries => areLinkFree entries
  | .link _ => false

/-- Whether there is no link in the entries. -/
def areLinkFree : List (Bytes × Entry) → Bool
  | [] => true
  | (_, entry) :: entries => entry.isLinkFree && areLinkFree entries

end

theorem isLinkFree_child? {entry child : Entry} {name : Bytes}
    (linkFree : entry.isLinkFree = true) (found : entry.child? name = some child) :
    child.isLinkFree = true := by
  cases entry with
  | file text => cases found
  | link target => cases found
  | directory entries =>
      rw [isLinkFree] at linkFree
      rw [child?] at found
      induction entries with
      | nil => cases found
      | cons first rest ih =>
          obtain ⟨firstName, firstEntry⟩ := first
          rw [areLinkFree, Bool.and_eq_true] at linkFree
          rw [List.lookup_cons] at found
          cases same : name == firstName with
          | true =>
              rw [same] at found
              cases found
              exact linkFree.1
          | false =>
              rw [same] at found
              exact ih linkFree.2 found

theorem isLinkFree_descend? {entry deep : Entry} {names : List Bytes}
    (linkFree : entry.isLinkFree = true) (found : entry.descend? names = some deep) :
    deep.isLinkFree = true := by
  induction names generalizing entry with
  | nil =>
      cases found
      exact linkFree
  | cons name names ih =>
      obtain ⟨child, isChild, below⟩ := Option.bind_eq_some_iff.mp found
      exact ih (isLinkFree_child? linkFree isChild) below

end Entry

/-- Whether there is no link in the tree. -/
def isLinkFree (tree : FileTree) : Bool :=
  tree.root.isLinkFree

section LinkFree

variable {tree : FileTree} {place there : Place} {entry : Entry}

theorem child?_ne_link (linkFree : tree.isLinkFree = true)
    (isThere : tree.entryAt? place = some entry) (name : Bytes) (target : Path) :
    entry.child? name ≠ some (.link target) := fun isLink => by
  cases Entry.isLinkFree_child? (Entry.isLinkFree_descend? linkFree isThere) isLink

/-! ## Places -/

/-- The place that a component leads to from a place. -/
def stepFrom (place : Place) : Path.Component → Place
  | .root => []
  | .here => place
  | .up => place.tail
  | .name text => text :: place

/-- The place that components lead to from the root. -/
def placeOf (components : List Path.Component) : Place :=
  components.foldl stepFrom []

theorem placeOf_concat (components : List Path.Component) (last : Path.Component) :
    placeOf (components ++ [last]) = stepFrom (placeOf components) last :=
  List.foldl_concat _ _ _ _

/-- A step goes one place down at the most. -/
theorem suffix_stepFrom {component : Path.Component}
    (encloses : there <:+ stepFrom place component) :
    there = stepFrom place component ∨ there <:+ place := by
  cases component with
  | root => exact .inl (List.suffix_nil.mp encloses)
  | here => exact .inr encloses
  | up => exact .inr (encloses.trans (List.tail_suffix place))
  | name text => exact List.suffix_cons_iff.mp encloses

/-- The place that a piece of a path leads to from a place. -/
def pieceFrom (place : Place) (piece : Bytes) : Place :=
  if piece.isEmpty || piece == [point] then place
  else if piece == [point, point] then place.tail
  else piece :: place

theorem pieceFrom_behindSlash (place : Place) (piece : Bytes) :
    pieceFrom place piece =
      if (Path.Step.behindSlash piece).counts then
        stepFrom place (Path.Step.behindSlash piece).component
      else place := by
  rw [pieceFrom, Path.Step.behindSlash, Path.Step.component]
  cases isEmpty : piece.isEmpty with
  | true => rfl
  | false =>
      cases isHere : piece == [point] with
      | true => rfl
      | false =>
          cases isUp : piece == [point, point] with
          | true => simp [stepFrom]
          | false => simp [stepFrom]

/-- Pieces behind slashes lead where their components do. -/
theorem foldl_pieceFrom (pieces : List Bytes) (place : Place) :
    pieces.foldl pieceFrom place =
      (Path.componentsOf (pieces.map Path.Step.behindSlash)).foldl stepFrom place := by
  induction pieces generalizing place with
  | nil => rfl
  | cons piece pieces ih =>
      rw [List.foldl_cons, List.map_cons, ih, pieceFrom_behindSlash]
      cases counts : (Path.Step.behindSlash piece).counts with
      | true => rw [Path.componentsOf_cons_of_counts counts, List.foldl_cons, if_pos rfl]
      | false => rw [Path.componentsOf_cons_of_silent counts, if_neg Bool.false_ne_true]

/-! ## Following paths -/

/-- A walk that meets no link ends where its steps lead. -/
theorem walk_of_linkFree (linkFree : tree.isLinkFree = true) {follow : Bool}
    {onLink : Place → Path → List Bytes → Except FileError Target}
    {pieces : List Bytes}
    (leads : tree.walk follow onLink place pieces = .ok (.found there entry)) :
    there = pieces.foldl pieceFrom place ∧ tree.entryAt? there = some entry := by
  induction pieces generalizing place with
  | nil =>
      rw [walk] at leads
      cases isThere : tree.entryAt? place with
      | none =>
          rw [isThere] at leads
          cases leads
      | some found =>
          rw [isThere] at leads
          cases leads
          exact ⟨rfl, isThere⟩
  | cons piece pieces ih =>
      rw [walk] at leads
      cases isThere : tree.entryAt? place with
      | none =>
          rw [isThere] at leads
          cases leads
      | some found =>
          rw [isThere] at leads
          have noLink := child?_ne_link linkFree isThere piece
          simp only at leads
          rw [List.foldl_cons, pieceFrom]
          cases silent : piece.isEmpty || piece == [point] with
          | true =>
              simp only [silent, if_true] at leads ⊢
              split_ifs at leads
              exact ih leads
          | false =>
              simp only [silent, Bool.false_eq_true, if_false] at leads ⊢
              cases up : piece == [point, point] with
              | true =>
                  simp only [up, if_true] at leads ⊢
                  split_ifs at leads
                  exact ih leads
              | false =>
                  simp only [up, Bool.false_eq_true, if_false] at leads ⊢
                  cases isChild : found.child? piece with
                  | none =>
                      simp only [isChild] at leads
                      split_ifs at leads
                      cases leads
                  | some child =>
                      rw [isChild] at noLink
                      cases child with
                      | link target => exact absurd rfl (noLink target)
                      | file text =>
                          simp only [isChild] at leads
                          split_ifs at leads
                          exact ih leads
                      | directory entries =>
                          simp only [isChild] at leads
                          split_ifs at leads
                          exact ih leads

/-- **Without links an absolute path leads where its components say.** -/
theorem place_of_locate (linkFree : tree.isLinkFree = true) {path : Path}
    (absolute : path.isAbsolute = true)
    (leads : tree.locate true path = .ok (.found there entry)) :
    there = placeOf path.components ∧ tree.entryAt? there = some entry := by
  obtain ⟨nonempty, noNul⟩ := text_of_locate leads
  obtain ⟨onLink, isWalk⟩ := exists_walk tree linkLimit
  rw [locate_eq_walkThrough nonempty noNul, isWalk, startOf, if_pos absolute,
    Path.stepsOf_of_isAbsolute absolute] at leads
  obtain ⟨isPlace, isThere⟩ := walk_of_linkFree linkFree leads
  refine ⟨isPlace.trans ?_, isThere⟩
  have behindRoot : pieceFrom [] [] = [] := rfl
  rw [Path.components_eq, absolute, if_pos rfl, placeOf, List.singleton_append, List.foldl_cons,
    List.foldl_cons, behindRoot, Path.steps_map_text, absolute, if_pos rfl, foldl_pieceFrom,
    Path.steps_of_isAbsolute absolute]
  rfl

/-- A name leads on from a directory to the entry under it. -/
theorem locate_child_of_linkFree (linkFree : tree.isLinkFree = true) {path : Path}
    (absolute : path.isAbsolute = true) {name : Bytes} (isName : isName name = true)
    (noNul : 0 ∉ name) {entries : List (Bytes × Entry)}
    (leads : tree.locate true path = .ok (.found place (.directory entries))) :
    tree.locate true (path.child name) = underName place entries name := by
  have isThere := (place_of_locate linkFree absolute leads).2
  refine locate_child_of_found isName (child?_ne_link linkFree isThere name) ?_ leads
  rw [child_text isName, Path.stem]
  have pathNoNul := (text_of_locate leads).2
  split_ifs
  · simp [pathNoNul, noNul]
  · simp [pathNoNul, noNul]

end LinkFree

/-! ## Where parents lead -/

section Parents

variable {tree : FileTree} {path parent : Path} {place : Place} {entry : Entry}

/-- The root is where the path `/` leads. -/
theorem locate_root {entries : List (Bytes × Entry)}
    (isRoot : tree.entryAt? [] = some (.directory entries)) :
    tree.locate true ⟨[slash]⟩ = .ok (.found [] (.directory entries)) := by
  obtain ⟨onLink, isWalk⟩ := exists_walk tree linkLimit
  have pieces : stepsOf ⟨[slash]⟩ = [[], []] := rfl
  rw [locate_eq_walkThrough (by simp) (by simp), isWalk, pieces]
  simp [startOf, Path.isAbsolute, walk, isRoot, Entry.isDirectory]

/-- **The parent of a path leads to a directory.** -/
theorem exists_locate_parent (absolute : path.isAbsolute = true)
    (isParent : path.parent? = some parent) {target : Target}
    (leads : tree.locate true path = .ok target) :
    ∃ above entries, tree.locate true parent = .ok (.found above (.directory entries)) := by
  obtain ⟨nonempty, noNul⟩ := text_of_locate leads
  have parentNoNul : 0 ∉ parent.text := fun nul =>
    noNul ((Path.text_prefix_of_parent? isParent).mem nul)
  obtain ⟨front, between, last, behind, isSteps, _, _, _, rfl⟩ :=
    Path.exists_steps_of_parent? isParent
  rw [absolute] at parentNoNul ⊢
  obtain ⟨first, rest, isRest⟩ := List.exists_cons_of_ne_nil
    (List.append_ne_nil_of_right_ne_nil between (List.cons_ne_nil last behind))
  have pieces : stepsOf path =
      ([] :: front.map (·.text)) ++ first.text :: rest.map (·.text) := by
    rw [Path.stepsOf_of_isAbsolute absolute, isSteps, isRest, List.map_append, List.map_cons,
      List.cons_append]
  rw [locate_eq_walkThrough nonempty noNul, startOf, if_pos absolute, pieces] at leads
  obtain ⟨above, entries, leadsAbove, isThere, _⟩ := exists_directory_of_walkThrough leads
  cases front with
  | nil =>
      -- The root is written with a slash more than its one piece has.
      obtain ⟨onLink, isWalk⟩ := exists_walk tree linkLimit
      rw [List.map_nil, isWalk] at leadsAbove
      obtain ⟨root, isRoot, others, rfl⟩ := exists_directory_of_walk leadsAbove
      exact ⟨[], others, locate_root isRoot⟩
  | cons step steps =>
      refine ⟨above, entries, ?_⟩
      have parentAbsolute : (Path.ofSteps true (step :: steps)).isAbsolute = true := rfl
      rw [locate_eq_walkThrough (by simp [Path.ofSteps]) parentNoNul, startOf,
        if_pos parentAbsolute, Path.stepsOf_of_isAbsolute parentAbsolute,
        Path.steps_ofSteps absolute (List.cons_ne_nil step steps) isSteps]
      exact leadsAbove

/-- A path that leads somewhere from the root has a directory there. -/
theorem exists_root_of_locate (absolute : path.isAbsolute = true) {target : Target}
    (leads : tree.locate true path = .ok target) :
    ∃ entries, tree.entryAt? [] = some (.directory entries) := by
  obtain ⟨nonempty, noNul⟩ := text_of_locate leads
  obtain ⟨onLink, isWalk⟩ := exists_walk tree linkLimit
  rw [locate_eq_walkThrough nonempty noNul, isWalk, startOf, if_pos absolute,
    Path.stepsOf_of_isAbsolute absolute] at leads
  obtain ⟨root, isRoot, entries, rfl⟩ := exists_directory_of_walk leads
  exact ⟨entries, isRoot⟩

/-- What has something below it is a directory. -/
theorem exists_directory_of_entryAt?_cons {name : Bytes}
    (isThere : tree.entryAt? (name :: place) = some entry) :
    ∃ entries, tree.entryAt? place = some (.directory entries) := by
  rw [entryAt?, List.reverse_cons, descend?_concat] at isThere
  obtain ⟨above, isAbove, isChild⟩ := Option.bind_eq_some_iff.mp isThere
  cases above with
  | directory entries => exact ⟨entries, isAbove⟩
  | file text => cases isChild
  | link target => cases isChild

/-- **A file is in the directory that the parent of its path leads to.** -/
theorem exists_parent_of_file (linkFree : tree.isLinkFree = true)
    (absolute : path.isAbsolute = true) {text : Option String}
    (leads : tree.locate true path = .ok (.found place (.file text))) :
    ∃ parent entries, path.parent? = some parent ∧
      tree.locate true parent = .ok (.found place.tail (.directory entries)) := by
  obtain ⟨isPlace, isFile⟩ := place_of_locate linkFree absolute leads
  obtain ⟨rootEntries, isRoot⟩ := exists_root_of_locate absolute leads
  have notDirectory : ∀ entries, tree.entryAt? place ≠ some (.directory entries) := by
    intro entries isDirectory
    cases isFile.symm.trans isDirectory
  cases isParent : path.parent? with
  | none =>
      have atRoot : place = [] := by
        rw [isPlace, Path.components_of_parent?_eq_none absolute isParent]
        rfl
      exact absurd (atRoot ▸ isRoot) (notDirectory rootEntries)
  | some parent =>
      obtain ⟨parentAbsolute, last, isComponents⟩ := Path.components_of_parent? absolute isParent
      obtain ⟨above, entries, leadsAbove⟩ := exists_locate_parent absolute isParent leads
      obtain ⟨isAbove, isDirectory⟩ := place_of_locate linkFree parentAbsolute leadsAbove
      rw [isComponents, placeOf_concat, ← isAbove] at isPlace
      refine ⟨parent, entries, rfl, ?_⟩
      cases last with
      | root => exact absurd (isPlace ▸ isRoot) (notDirectory rootEntries)
      | here => exact absurd (isPlace ▸ isDirectory) (notDirectory entries)
      | up =>
          -- Above a directory there are only directories.
          cases above with
          | nil => exact absurd (isPlace ▸ isRoot) (notDirectory rootEntries)
          | cons name above =>
              obtain ⟨others, isOther⟩ := exists_directory_of_entryAt?_cons isDirectory
              exact absurd (isPlace ▸ isOther) (notDirectory others)
      | name text =>
          rw [isPlace]
          exact leadsAbove

end Parents

end SampleMethods.FileTree
