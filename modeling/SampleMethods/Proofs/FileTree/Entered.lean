import SampleMethods.Proofs.FileTree.Spelling
import SampleMethods.Proofs.Path.Order
import SampleMethods.Proofs.Text.Bytes

/-!
# The directories that a search enters

A search that starts at a directory enters the directories below it that a row of names
leads to, if every one of these names is one of a directory, not of a link, and none of
them is left out (`Enters`). What it selects has no part in that. The files that it finds
are the selected files in the directories that it enters
(`mem_selected_of_directory`), in strict order (`selected_precedes`).
-/

set_option autoImplicit false

namespace SampleMethods.FileTree

open Text (Bytes point)

open Entry (isProper_directory)

/-! ## Left out directories -/

/-- The name is one of a directory that holds no code of its own: it starts with a point, or is one
of the names that directories of other people's code or of results have. -/
def IsLeftOut (name : Bytes) : Prop :=
  name.head? = some point ∨ name ∈ skippedNames.map Text.bytes

theorem isSkipped_iff {name : Bytes} :
    isSkipped name = true ↔ ∃ text : String, name = Text.bytes text ∧
      (text.toList.head? = some '.' ∨ text ∈ skippedNames) := by
  rw [isSkipped]
  cases isText : Text.decode? name with
  | none =>
      refine iff_of_false Bool.false_ne_true ?_
      rintro ⟨text, rfl, _⟩
      rw [Text.bytes, Text.decode?_encode] at isText
      cases isText
  | some text =>
      rw [Bool.or_eq_true, beq_iff_eq, List.contains_iff_mem]
      constructor
      · intro leftOut
        refine ⟨String.ofList text, ?_, by rwa [String.toList_ofList]⟩
        rw [Text.bytes, String.toList_ofList]
        exact Text.decode?_eq_some_iff.mp isText
      · rintro ⟨other, isName, leftOut⟩
        obtain rfl := Text.encode_injective ((Text.decode?_eq_some_iff.mp isText).symm.trans isName)
        rwa [String.ofList_toList]

theorem head?_bytes_iff {text : String} :
    (Text.bytes text).head? = some point ↔ text.toList.head? = some '.' := by
  have begins : Text.encode ['.'] <+: Text.encode text.toList ↔ ['.'] <+: text.toList :=
    Text.prefix_bytes_iff (by decide)
  rw [List.head?_eq_some_iff, List.head?_eq_some_iff]
  constructor
  · rintro ⟨behind, isText⟩
    obtain ⟨rest, isRest⟩ := begins.mp ⟨behind, isText.symm⟩
    exact ⟨rest, isRest.symm⟩
  · rintro ⟨behind, isText⟩
    obtain ⟨rest, isRest⟩ := begins.mpr ⟨behind, isText.symm⟩
    exact ⟨rest, isRest.symm⟩

/-- A search leaves out only directories with such names. -/
theorem isLeftOut_of_isSkipped {name : Bytes} (skipped : isSkipped name = true) :
    IsLeftOut name := by
  obtain ⟨text, rfl, hidden | known⟩ := isSkipped_iff.mp skipped
  · exact .inl (head?_bytes_iff.mpr hidden)
  · exact .inr (List.mem_map_of_mem known)

/-- Every hidden directory that a search comes to from the entry at a path has a name that a text
writes. -/
def HiddenAreText (path : Path) (entry : Entry) : Prop :=
  ∀ found entries name inner, Reaches path entry found (.directory entries) →
    (name, .directory inner) ∈ entries → name.head? = some point → ∃ text, name = Text.bytes text

theorem HiddenAreText.of_reaches {path found : Path} {entry foundEntry : Entry}
    (hidden : HiddenAreText path entry) (reaches : Reaches path entry found foundEntry) :
    HiddenAreText found foundEntry :=
  fun further entries name inner more => hidden further entries name inner (reaches.trans more)

/-- It is enough that this is so in the directory itself and from its entries on. -/
theorem HiddenAreText.directory {path : Path} {entries : List (Bytes × Entry)}
    (here : ∀ child ∈ entries, child.2.isDirectory = true → child.1.head? = some point →
      ∃ text, child.1 = Text.bytes text)
    (below : ∀ child ∈ entries, HiddenAreText (path.child child.1) child.2) :
    HiddenAreText path (.directory entries) := by
  intro found others name inner reaches member
  cases reaches with
  | here _ _ => exact here _ member rfl
  | inside isChild _ further => exact below _ isChild found others name inner further member

/-- From an entry the names lead through directories only, none of them left out, to one with the
entries in it. -/
structure Enters (entry : Entry) (names : List Bytes) (inner : List (Bytes × Entry)) :
    Prop where
  leads : entry.descend? names = some (.directory inner)
  throughDirectories : ∀ front, front <+: names →
    ∃ entries, entry.descend? front = some (.directory entries)
  admitted : ∀ name ∈ names, ¬IsLeftOut name

section Enters

variable {entries others inner : List (Bytes × Entry)} {entry : Entry} {name : Bytes}
  {names : List Bytes}

theorem descend?_of_lookup (isChild : entries.lookup name = some entry) :
    (Entry.directory entries).descend? (name :: names) = entry.descend? names := by
  rw [Entry.descend?, Entry.child?, isChild, Option.bind_some]

/-- A directory below a directory is entered if its name is not left out. -/
theorem Enters.cons (isChild : entries.lookup name = some (.directory others))
    (admitted : ¬IsLeftOut name) (enters : Enters (.directory others) names inner) :
    Enters (.directory entries) (name :: names) inner where
  leads := (descend?_of_lookup isChild).trans enters.leads
  throughDirectories front isFront := by
    cases front with
    | nil => exact ⟨entries, rfl⟩
    | cons first front =>
        obtain ⟨rfl, restFront⟩ := List.cons_prefix_cons.mp isFront
        rw [descend?_of_lookup isChild]
        exact enters.throughDirectories front restFront
  admitted := List.forall_mem_cons.mpr ⟨admitted, enters.admitted⟩

/-- A directory is entered through a directory in the one where the search starts. -/
theorem Enters.exists_cons (enters : Enters (.directory entries) (name :: names) inner) :
    ∃ others, entries.lookup name = some (.directory others) ∧ ¬IsLeftOut name ∧
      Enters (.directory others) names inner := by
  obtain ⟨admitted, restAdmitted⟩ := List.forall_mem_cons.mp enters.admitted
  obtain ⟨others, isChild⟩ := enters.throughDirectories [name] ⟨names, rfl⟩
  rw [Entry.descend?, Option.bind_eq_some_iff] at isChild
  obtain ⟨child, isChild, isDirectory⟩ := isChild
  cases isDirectory
  refine ⟨others, isChild, admitted, (descend?_of_lookup isChild).symm.trans enters.leads, ?_,
    restAdmitted⟩
  intro front isFront
  obtain ⟨further, leads⟩ := enters.throughDirectories (name :: front)
    (List.cons_prefix_cons.mpr ⟨rfl, isFront⟩)
  exact ⟨further, (descend?_of_lookup isChild).symm.trans leads⟩

/-- The way to an entered directory has names only. -/
theorem Enters.areNames (proper : (Entry.directory entries).isProper = true)
    (enters : Enters (.directory entries) names inner) :
    (∀ name ∈ names, isName name = true) ∧ (Entry.directory inner).isProper = true := by
  induction names generalizing entries with
  | nil =>
      cases enters.leads
      exact ⟨List.forall_mem_nil _, proper⟩
  | cons name names ih =>
      obtain ⟨others, isChild, _, further⟩ := enters.exists_cons
      obtain ⟨distinct, each⟩ := isProper_directory.mp proper
      obtain ⟨nameIsName, childProper⟩ :=
        each name (.directory others) ((lookup_eq_some_iff_mem distinct).mp isChild)
      obtain ⟨areNames, innerProper⟩ := ih childProper further
      exact ⟨List.forall_mem_cons.mpr ⟨nameIsName, areNames⟩, innerProper⟩

end Enters

/-! ## Found files -/

/-- A search for files with wanted names that starts at an entry, whose path is given, finds the
file: it is in a directory that is entered, and its name is wanted. -/
def FoundBelow (path : Path) (entry : Entry) (isWanted : Bytes → Prop) (file : Path) : Prop :=
  ∃ names inner name text, Enters entry names inner ∧ inner.lookup name = some (.file text) ∧
    file = path.below (names ++ [name]) ∧ isWanted name

section Found

variable {tree : FileTree} {path found : Path} {entry : Entry} {text : Option String}
  {entries inner : List (Bytes × Entry)} {names : List Bytes} {name : Bytes}

/-- A file in a directory that is entered is reached. -/
theorem Enters.reaches (proper : (Entry.directory entries).isProper = true)
    (enters : Enters (.directory entries) names inner) (isFile : inner.lookup name = some (.file text)) :
    Reaches path (.directory entries) (path.below (names ++ [name])) (.file text) := by
  induction names generalizing path entries with
  | nil =>
      cases enters.leads
      have member := (lookup_eq_some_iff_mem (isProper_directory.mp proper).1).mp isFile
      exact .inside member rfl (.here _ _)
  | cons first names ih =>
      obtain ⟨others, isChild, admitted, further⟩ := enters.exists_cons
      obtain ⟨distinct, each⟩ := isProper_directory.mp proper
      have member := (lookup_eq_some_iff_mem distinct).mp isChild
      have visited : isVisited first (.directory others) = true := by
        simpa [isVisited] using mt isLeftOut_of_isSkipped admitted
      exact .inside member visited (ih (each first _ member).2 further)

/-- What is reached is reached behind a row of names. -/
theorem Reaches.exists_names {foundEntry : Entry} (proper : entry.isProper = true)
    (reaches : Reaches path entry found foundEntry) :
    ∃ names, (∀ name ∈ names, isName name = true) ∧ found = path.below names := by
  induction reaches with
  | here path _ => exact ⟨[], List.forall_mem_nil _, rfl⟩
  | inside member _ _ ih =>
      obtain ⟨nameIsName, childProper⟩ := (isProper_directory.mp proper).2 _ _ member
      obtain ⟨names, areNames, rfl⟩ := ih childProper
      exact ⟨_ :: names, List.forall_mem_cons.mpr ⟨nameIsName, areNames⟩, rfl⟩

end Found

/-! ## Searches by names -/

section Searches

variable {tree : FileTree} {select : Path → Bool} {path : Path}

theorem selected_of_error {error : FileError} (fails : tree.entry path = .error error) :
    tree.selected select path = [] := by
  rw [selected, fails]

/-- **A search selects files in strict order.** -/
theorem selected_precedes (proper : tree.isProper = true) (path : Path) :
    (tree.selected select path).Pairwise Path.Precedes := by
  have distinct : ((tree.selected select path).map Path.components).Nodup := by
    rw [List.nodup_map_iff_inj_on (selected_nodup proper path)]
    intro first isFirst second isSecond same
    -- Behind the one start the paths of two files differ as their names do.
    obtain ⟨_, entry, _, isEntry, reaches⟩ := mem_selected_iff.mp isFirst
    obtain ⟨_, other, _, isOther, reachesSecond⟩ := mem_selected_iff.mp isSecond
    cases isEntry.symm.trans isOther
    have properHere := isProper_of_entry proper isEntry
    obtain ⟨names, areNames, rfl⟩ := reaches.exists_names properHere
    obtain ⟨others, areOthers, rfl⟩ := reachesSecond.exists_names properHere
    rw [Path.components_below path areNames, Path.components_below path areOthers] at same
    have sameNames := List.map_injective_iff.mpr
      (fun _ _ isSame => Path.Component.name.inj isSame) (List.append_cancel_left same)
    rw [sameNames]
  cases isEntry : tree.entry path with
  | error error =>
      rw [selected_of_error isEntry]
      exact .nil
  | ok entry =>
      simp only [selected, isEntry] at distinct ⊢
      have perm := List.mergeSort_perm (selectedAt select path [] entry) Path.isAtMost
      exact Path.mergeSort_precedes ((perm.map _).nodup_iff.mp distinct)

/-- The answer of a search for files with wanted names that starts at a path: it is in strict
order, and it has the wanted files of the directories that are entered from a directory, a file
itself or nothing, and nothing where nothing is. -/
structure Finds (tree : FileTree) (path : Path) (isWanted : Bytes → Prop) (found : List Path) :
    Prop where
  ordered : found.Pairwise Path.Precedes
  ofDirectory : ∀ entries, tree.entry path = .ok (.directory entries) →
    ∀ file, file ∈ found ↔ FoundBelow path (.directory entries) isWanted file
  ofFile : ∀ text, tree.entry path = .ok (.file text) →
    (∃ name, path.fileName? = some name ∧ isWanted name) ∧ found = [path] ∨
      (¬∃ name, path.fileName? = some name ∧ isWanted name) ∧ found = []
  ofNothing : ∀ error, tree.entry path = .error error → found = []

end Searches

end SampleMethods.FileTree
