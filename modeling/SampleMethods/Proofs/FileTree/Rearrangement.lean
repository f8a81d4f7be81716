import SampleMethods.Proofs.FileTree.Proper

/-!
# The order in which directories are listed

Two trees that differ in the order of the entries in their directories, at any
depth, are the same file system seen by two listings. One is a rearrangement of
the other. In a proper tree no question about a path tells them apart: a path
leads to the same place, with the same kind of entry there, and a file has the
same text (`Rearranges.locate`, `Rearranges.readText_eq`).
-/

set_option autoImplicit false

namespace SampleMethods.FileTree

open Text (Bytes)

namespace Entry

/-- The second entry is the first one with the entries of directories in it listed in another
order. -/
inductive Rearranges : Entry → Entry → Prop where
  | refl (entry : Entry) : Rearranges entry entry
  | listing {entries others : List (Bytes × Entry)} :
      entries.Perm others → Rearranges (.directory entries) (.directory others)
  | inside {entry other : Entry} (name : Bytes) (before after : List (Bytes × Entry)) :
      Rearranges entry other →
        Rearranges (.directory (before ++ (name, entry) :: after))
          (.directory (before ++ (name, other) :: after))
  | trans {first second third : Entry} :
      Rearranges first second → Rearranges second third → Rearranges first third

/-- The entries are the same, or both are directories. -/
def SameKind (first second : Entry) : Prop :=
  first = second ∨
    ∃ entries others, first = .directory entries ∧ second = .directory others

namespace SameKind

variable {first second third : Entry}

theorem trans (one : SameKind first second) (other : SameKind second third) :
    SameKind first third := by
  rcases one with rfl | ⟨entries, _, rfl, rfl⟩
  · exact other
  · rcases other with rfl | ⟨_, others, _, rfl⟩
    · exact .inr ⟨_, _, rfl, rfl⟩
    · exact .inr ⟨_, _, rfl, rfl⟩

theorem isDirectory_eq (same : SameKind first second) :
    first.isDirectory = second.isDirectory := by
  rcases same with rfl | ⟨_, _, rfl, rfl⟩
  · rfl
  · rfl

end SameKind

/-- Only directories can be rearranged. -/
theorem Rearranges.sameKind {first second : Entry} (rearranges : Rearranges first second) :
    SameKind first second := by
  induction rearranges with
  | refl entry => exact .inl rfl
  | listing _ => exact .inr ⟨_, _, rfl, rfl⟩
  | inside _ _ _ _ => exact .inr ⟨_, _, rfl, rfl⟩
  | trans _ _ one other => exact one.trans other

theorem Rearranges.isProper {first second : Entry} (rearranges : Rearranges first second)
    (proper : first.isProper = true) : second.isProper = true := by
  induction rearranges with
  | refl entry => exact proper
  | @listing entries others perm =>
      obtain ⟨distinct, each⟩ := isProper_directory.mp proper
      exact isProper_directory.mpr ⟨(perm.map (·.1)).nodup_iff.mp distinct,
        fun name entry member => each name entry (perm.mem_iff.mpr member)⟩
  | inside _ _ _ _ ih => exact isProper_replaced proper ih
  | trans _ _ first second => exact second (first proper)

/-- Two searches for an entry both find nothing, or they find rearranged entries. -/
def RearrangesFound (found other : Option Entry) : Prop :=
  (found = none ∧ other = none) ∨
    ∃ entry otherEntry, found = some entry ∧ other = some otherEntry ∧
      Rearranges entry otherEntry

theorem RearrangesFound.refl (found : Option Entry) : RearrangesFound found found := by
  cases found with
  | none => exact .inl ⟨rfl, rfl⟩
  | some entry => exact .inr ⟨entry, entry, rfl, rfl, .refl entry⟩

theorem RearrangesFound.trans {first second third : Option Entry}
    (one : RearrangesFound first second) (other : RearrangesFound second third) :
    RearrangesFound first third := by
  rcases one with ⟨rfl, rfl⟩ | ⟨entry, middle, rfl, rfl, earlier⟩
  · exact other
  · rcases other with ⟨nothing, _⟩ | ⟨_, last, same, rfl, later⟩
    · cases nothing
    · cases same
      exact .inr ⟨entry, last, rfl, rfl, earlier.trans later⟩

theorem Rearranges.child? {first second : Entry} (rearranges : Rearranges first second)
    (proper : first.isProper = true) (name : Bytes) :
    RearrangesFound (first.child? name) (second.child? name) := by
  induction rearranges with
  | refl entry => exact .refl _
  | @listing entries others perm =>
      have distinct := (isProper_directory.mp proper).1
      have otherDistinct := (perm.map (·.1)).nodup_iff.mp distinct
      have same : entries.lookup name = others.lookup name := by
        refine Option.ext fun entry => ?_
        rw [lookup_eq_some_iff_mem distinct, lookup_eq_some_iff_mem otherDistinct, perm.mem_iff]
      change RearrangesFound (entries.lookup name) (others.lookup name)
      rw [same]
      exact .refl _
  | @inside entry other here before after rearranged _ =>
      simp only [Entry.child?, List.lookup_append, List.lookup_cons]
      cases before.lookup name with
      | some child => exact .refl _
      | none =>
          cases name == here with
          | true => exact .inr ⟨entry, other, rfl, rfl, rearranged⟩
          | false => exact .refl _
  | trans earlier _ first second => exact (first proper).trans (second (earlier.isProper proper))

theorem Rearranges.descend? {first second : Entry} (rearranges : Rearranges first second)
    (proper : first.isProper = true) (names : List Bytes) :
    RearrangesFound (first.descend? names) (second.descend? names) := by
  induction names generalizing first second with
  | nil => exact .inr ⟨first, second, rfl, rfl, rearranges⟩
  | cons name names ih =>
      simp only [Entry.descend?]
      rcases rearranges.child? proper name with
        ⟨nothing, other⟩ | ⟨child, other, found, same, deeper⟩
      · rw [nothing, other]
        exact .refl _
      · rw [found, same]
        exact ih deeper (isProper_child? proper found)

theorem isProper_descend? {entry : Entry} (proper : entry.isProper = true)
    {names : List Bytes} {deep : Entry} (found : entry.descend? names = some deep) :
    deep.isProper = true := by
  induction names generalizing entry with
  | nil =>
      cases found
      exact proper
  | cons name names ih =>
      obtain ⟨child, here, below⟩ := Option.bind_eq_some_iff.mp found
      exact ih (isProper_child? proper here) below

end Entry

open Entry (RearrangesFound)

/-- The second tree is the first one with its directories listed in another order. -/
structure Rearranges (tree other : FileTree) : Prop where
  root : tree.root.Rearranges other.root
  workingDirectory : tree.workingDirectory = other.workingDirectory
  refuses : tree.refuses = other.refuses

/-! ## Following paths -/

/-- Two paths fail in the same way, or lead to the same place, with rearranged proper entries
there. -/
inductive SameTarget : Except FileError Target → Except FileError Target → Prop where
  | error (error : FileError) : SameTarget (.error error) (.error error)
  | absent (directory : Place) (name : Bytes) :
      SameTarget (.ok (.absent directory name)) (.ok (.absent directory name))
  | found (place : Place) {entry other : Entry} (proper : entry.isProper = true)
      (rearranges : entry.Rearranges other) :
      SameTarget (.ok (.found place entry)) (.ok (.found place other))

/-- What is related on either side of a test that both make is related. -/
theorem relates_ite {α β : Type} {relates : α → β → Prop} {test : Prop} [Decidable test]
    {found elseFound : α} {other elseOther : β} (one : relates found other)
    (otherwise : relates elseFound elseOther) :
    relates (if test then found else elseFound) (if test then other else elseOther) := by
  by_cases holds : test
  · rw [if_pos holds, if_pos holds]
    exact one
  · rw [if_neg holds, if_neg holds]
    exact otherwise

section FollowingPaths

variable {tree other : FileTree} (rearranges : tree.Rearranges other)
  (proper : tree.isProper = true)

include rearranges proper

theorem Rearranges.entryAt? (place : Place) :
    RearrangesFound (tree.entryAt? place) (other.entryAt? place) :=
  rearranges.root.descend? proper place.reverse

/-- What is done at a link makes no difference if it makes none there. -/
theorem Rearranges.walk (follow : Bool)
    {onLink otherLink : Place → Path → List Bytes → Except FileError Target}
    (sameLinks : ∀ place target steps,
      SameTarget (onLink place target steps) (otherLink place target steps))
    (place : Place) (steps : List Bytes) :
    SameTarget (tree.walk follow onLink place steps) (other.walk follow otherLink place steps) := by
  induction steps generalizing place with
  | nil =>
      simp only [FileTree.walk]
      rcases rearranges.entryAt? proper place with
        ⟨nothing, same⟩ | ⟨entry, otherEntry, found, same, here⟩
      · rw [nothing, same]
        exact .error _
      · rw [found, same]
        exact .found place (Entry.isProper_descend? proper found) here
  | cons step steps ih =>
      simp only [FileTree.walk]
      rcases rearranges.entryAt? proper place with
        ⟨nothing, same⟩ | ⟨entry, otherEntry, found, same, here⟩
      · rw [nothing, same]
        exact .error _
      · rw [found, same]
        simp only [← here.sameKind.isDirectory_eq]
        refine relates_ite (.error _) (relates_ite (ih place) ?_)
        refine relates_ite (ih place.tail) (relates_ite (.error _) ?_)
        have properHere := Entry.isProper_descend? proper found
        rcases here.child? properHere step with
          ⟨nothing, same⟩ | ⟨child, otherChild, found, same, below⟩
        · rw [nothing, same]
          exact relates_ite (.absent place step) (.error _)
        · rw [found, same]
          -- Only directories differ, and whether the step ends in one is all that matters here.
          rcases below.sameKind with rfl | ⟨_, _, rfl, rfl⟩
          · cases child with
            | file _ => exact ih _
            | directory _ => exact ih _
            | link target =>
                exact relates_ite (.found _ rfl (.refl _)) (sameLinks place target steps)
          · exact ih _

theorem Rearranges.walkThrough (follow : Bool) (links : Nat) (place : Place)
    (steps : List Bytes) :
    SameTarget (tree.walkThrough follow links place steps)
      (other.walkThrough follow links place steps) := by
  induction links generalizing place steps with
  | zero => exact rearranges.walk proper follow (fun _ _ _ => .error _) place steps
  | succ links ih =>
      exact rearranges.walk proper follow (fun _ _ _ => relates_ite (.error _) (ih _ _)) place steps

/-- **Following a path does not depend on the order in which directories are listed.** -/
theorem Rearranges.locate (follow : Bool) (path : Path) :
    SameTarget (tree.locate follow path) (other.locate follow path) := by
  simp only [FileTree.locate, rearranges.workingDirectory]
  exact relates_ite (.error _) (relates_ite (.error _) (rearranges.walkThrough proper follow _ _ _))

theorem Rearranges.entry_cases (path : Path) :
    (∃ error, tree.entry path = .error error ∧ other.entry path = .error error) ∨
      ∃ entry otherEntry, tree.entry path = .ok entry ∧ other.entry path = .ok otherEntry ∧
        entry.isProper = true ∧ entry.Rearranges otherEntry := by
  have same := rearranges.locate proper true path
  simp only [FileTree.entry]
  generalize tree.locate true path = target, other.locate true path = otherTarget at same
  cases same with
  | error error => exact .inl ⟨error, rfl, rfl⟩
  | absent directory name => exact .inl ⟨.notFound, rfl, rfl⟩
  | found place properHere here => exact .inr ⟨_, _, rfl, rfl, properHere, here⟩

/-! ## Questions about paths -/

/-- **The text of a file does not depend on the order in which directories are listed.** -/
theorem Rearranges.readText_eq (path : Path) : tree.readText path = other.readText path := by
  simp only [readText]
  rcases rearranges.entry_cases proper path with
    ⟨error, failed, same⟩ | ⟨entry, otherEntry, found, same, _, here⟩
  · rw [failed, same]
  · rw [found, same]
    rcases here.sameKind with rfl | ⟨_, _, rfl, rfl⟩
    · rfl
    · rfl

end FollowingPaths

theorem Rearranges.refl (tree : FileTree) : tree.Rearranges tree :=
  ⟨.refl _, rfl, rfl⟩

/-- The entries of a proper tree are proper. -/
theorem isProper_of_entry {tree : FileTree} (proper : tree.isProper = true) {path : Path}
    {entry : Entry} (isEntry : tree.entry path = .ok entry) : entry.isProper = true := by
  rcases (Rearranges.refl tree).entry_cases proper path with
    ⟨error, failed, _⟩ | ⟨found, _, isFound, _, properHere, _⟩
  · cases isEntry.symm.trans failed
  · cases isEntry.symm.trans isFound
    exact properHere

end SampleMethods.FileTree
