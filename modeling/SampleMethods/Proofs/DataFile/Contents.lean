import SampleMethods.DataFile
import SampleMethods.Proofs.Yaml.Reading

/-!
# The contents of data files

A data file without text, or with a YAML null, has no entries, and otherwise it
has those of a YAML mapping. Such a file is read just if all keys of the
mapping are texts (`read_eq_ok_iff`), and no two of these are the same.
-/

set_option autoImplicit false

namespace SampleMethods.DataFile

/-! ## What a text writes -/

/-- These are the entries that a text writes as a data file. -/
inductive Writes (text : String) : List (Yaml × Yaml) → Prop where
  | blank : Text.isAllBlank text.toList = true → Writes text []
  | null : Text.isAllBlank text.toList = false → Yaml.ofText text = .ok .null → Writes text []
  | mapping {entries : List (Yaml × Yaml)} : Text.isAllBlank text.toList = false →
      Yaml.ofText text = .ok (.mapping entries) → Writes text entries

namespace Writes

variable {text : String} {entries : List (Yaml × Yaml)}

/-- A text writes nothing, or a mapping. -/
theorem eq_nil_or_mapping (writes : Writes text entries) :
    entries = [] ∨ Yaml.ofText text = .ok (.mapping entries) := by
  cases writes with
  | blank _ => exact .inl rfl
  | null _ _ => exact .inl rfl
  | mapping _ written => exact .inr written

theorem unique {others : List (Yaml × Yaml)} (one : Writes text entries)
    (other : Writes text others) : entries = others := by
  cases one with
  | blank blank =>
      cases other with
      | blank _ => rfl
      | null _ _ => rfl
      | mapping notBlank _ => simp [blank] at notBlank
  | null notBlank null =>
      cases other with
      | blank _ => rfl
      | null _ _ => rfl
      | mapping _ mapping => cases null.symm.trans mapping
  | mapping notBlank mapping =>
      cases other with
      | blank blank => simp [blank] at notBlank
      | null _ null => cases null.symm.trans mapping
      | mapping _ again =>
          cases mapping.symm.trans again
          rfl

/-- No two keys of a data file are alike. -/
theorem unlikeKeys (writes : Writes text entries) : Yaml.UnlikeKeys entries := by
  rcases writes.eq_nil_or_mapping with rfl | written
  · exact .nil
  · cases Yaml.distinctKeys_of_ofText written with
    | mapping unlike _ _ => exact unlike

/-- No two keys of the attributes of a tag are alike. -/
theorem attributes_unlikeKeys (writes : Writes text entries) {key : Yaml}
    {attributes : List (Yaml × Yaml)} (member : (key, .mapping attributes) ∈ entries) :
    Yaml.UnlikeKeys attributes := by
  rcases writes.eq_nil_or_mapping with rfl | written
  · cases member
  · cases Yaml.distinctKeys_of_ofText written with
    | mapping _ _ values =>
        cases values _ member with
        | mapping unlike _ _ => exact unlike

theorem isTagFree (writes : Writes text entries)
    (tagFree : ∀ value, Yaml.ofText text = .ok value → value.isTagFree = true)
    {entry : Yaml × Yaml} (member : entry ∈ entries) :
    entry.1.isTagFree = true ∧ entry.2.isTagFree = true := by
  rcases writes.eq_nil_or_mapping with rfl | written
  · cases member
  · have mappingFree := tagFree _ written
    rw [Yaml.isTagFree] at mappingFree
    exact Yaml.haveTagFree_iff.mp mappingFree entry member

end Writes

/-- What is read of a text is read of the entries that it writes. -/
theorem Writes.ofText_eq {text : String} {given : List (Yaml × Yaml)} (writes : Writes text given)
    (path : Path) : ofText path text = given.mapM entryOf := by
  unfold ofText
  cases writes with
  | blank blank =>
      rw [if_pos blank]
      rfl
  | null notBlank null =>
      rw [notBlank, null]
      rfl
  | mapping notBlank mapping =>
      rw [notBlank, mapping]
      rfl

/-- A text that is read writes entries. -/
theorem exists_writes_of_ofText {path : Path} {text : String} {entries : List (String × TagEntry)}
    (read : ofText path text = .ok entries) : ∃ given, Writes text given := by
  unfold ofText at read
  cases blank : Text.isAllBlank text.toList with
  | true => exact ⟨[], .blank blank⟩
  | false =>
      rw [blank] at read
      cases written : Yaml.ofText text with
      | error error =>
          rw [written] at read
          cases read
      | ok value =>
          rw [written] at read
          cases value with
          | null => exact ⟨[], .null blank written⟩
          | mapping given => exact ⟨given, .mapping blank written⟩
          | _ => cases read

/-! ## Keys -/

/-- The entries with texts for their keys. -/
def texts (entries : List (String × Yaml)) : List (Yaml × Yaml) :=
  entries.map fun (tag, value) => (.string tag, value)

/-- What is read of such entries. -/
def described (entries : List (String × Yaml)) : List (String × TagEntry) :=
  entries.map fun (tag, value) => (tag, .ofValue value)

theorem mem_texts {entries : List (String × Yaml)} {tag : String} {value : Yaml} :
    (.string tag, value) ∈ texts entries ↔ (tag, value) ∈ entries := by
  simp [texts]

theorem texts_injective {pairs others : List (String × Yaml)} (same : texts pairs = texts others) :
    pairs = others := by
  refine (List.map_inj_right ?_).mp same
  rintro ⟨tag, value⟩ ⟨other, otherValue⟩ sameEntry
  cases sameEntry
  rfl

theorem eq_texts_iff {entries : List (Yaml × Yaml)} :
    (∃ pairs, entries = texts pairs) ↔
      ∀ entry ∈ entries, ∃ tag, entry.1 = .string tag := by
  constructor
  · rintro ⟨pairs, rfl⟩ entry member
    obtain ⟨⟨tag, value⟩, _, rfl⟩ := List.mem_map.mp member
    exact ⟨tag, rfl⟩
  · intro each
    induction entries with
    | nil => exact ⟨[], rfl⟩
    | cons entry entries ih =>
        obtain ⟨⟨tag, isTag⟩, others⟩ := List.forall_mem_cons.mp each
        obtain ⟨pairs, rfl⟩ := ih others
        obtain ⟨key, value⟩ := entry
        cases isTag
        exact ⟨(tag, value) :: pairs, rfl⟩

theorem mapM_entryOf_texts (pairs : List (String × Yaml)) :
    (texts pairs).mapM entryOf = .ok (described pairs) := by
  induction pairs with
  | nil => rfl
  | cons pair pairs ih =>
      rw [texts, List.map_cons, List.mapM_cons]
      change (do
        let entry ← Except.ok (pair.1, TagEntry.ofValue pair.2)
        let entries ← (texts pairs).mapM entryOf
        return entry :: entries) = _
      rw [ih]
      rfl

/-- Entries are not read if the key of one is no text, and the first such key is named. -/
theorem mapM_entryOf_eq_error {before after : List (Yaml × Yaml)} {key value : Yaml}
    (texts : ∀ entry ∈ before, ∃ tag, entry.1.text? = some tag) (noText : key.text? = none) :
    (before ++ (key, value) :: after).mapM entryOf =
      .error (.because ("region tag " ++ describe key ++ " is not a string")) := by
  induction before with
  | nil =>
      rw [List.nil_append, List.mapM_cons, entryOf, noText]
      rfl
  | cons first rest ih =>
      obtain ⟨⟨tag, isTag⟩, others⟩ := List.forall_mem_cons.mp texts
      rw [List.cons_append, List.mapM_cons, entryOf, isTag, ih others]
      rfl

theorem text_of_mapM_entryOf {given : List (Yaml × Yaml)} {entries : List (String × TagEntry)}
    (read : given.mapM entryOf = .ok entries) :
    ∀ entry ∈ given, ∃ tag, entry.1.text? = some tag := by
  induction given generalizing entries with
  | nil => exact fun _ member => nomatch member
  | cons first rest ih =>
      rw [List.mapM_cons] at read
      cases isText : first.1.text? with
      | none =>
          rw [entryOf, isText] at read
          cases read
      | some tag =>
          cases others : rest.mapM entryOf with
          | error failure =>
              rw [entryOf, isText, others] at read
              cases read
          | ok read => exact List.forall_mem_cons.mpr ⟨⟨tag, isText⟩, ih others⟩

/-- Entries are read if all their keys are texts, tagged or not. -/
theorem exists_mapM_entryOf {given : List (Yaml × Yaml)}
    (texts : ∀ entry ∈ given, ∃ tag, entry.1.text? = some tag) :
    ∃ entries, given.mapM entryOf = .ok entries ∧
      ∀ key value tag, (key, value) ∈ given → key.text? = some tag →
        (tag, .ofValue value) ∈ entries := by
  induction given with
  | nil => exact ⟨[], rfl, fun _ _ _ member => nomatch member⟩
  | cons first rest ih =>
      obtain ⟨⟨firstTag, isFirstTag⟩, others⟩ := List.forall_mem_cons.mp texts
      obtain ⟨entries, read, each⟩ := ih others
      refine ⟨(firstTag, .ofValue first.2) :: entries, ?_, fun key value tag member isTag => ?_⟩
      · rw [List.mapM_cons, entryOf, isFirstTag, read]
        rfl
      · rcases List.mem_cons.mp member with rfl | behind
        · cases isFirstTag.symm.trans isTag
          exact List.mem_cons_self
        · exact List.mem_cons_of_mem _ (each key value tag behind isTag)

/-- Entries without tags are read just if their keys are texts. -/
theorem mapM_entryOf_eq_ok_iff {given : List (Yaml × Yaml)}
    (tagFree : ∀ entry ∈ given, entry.1.isTagFree = true) {entries : List (String × TagEntry)} :
    given.mapM entryOf = .ok entries ↔
      ∃ pairs, given = texts pairs ∧ entries = described pairs := by
  constructor
  · intro read
    have isText : ∀ entry ∈ given, ∃ tag, entry.1 = .string tag := by
      intro entry member
      obtain ⟨tag, isText⟩ := text_of_mapM_entryOf read entry member
      exact ⟨tag, (Yaml.text?_eq_some_iff (tagFree entry member)).mp isText⟩
    obtain ⟨pairs, rfl⟩ := eq_texts_iff.mpr isText
    rw [mapM_entryOf_texts] at read
    cases read
    exact ⟨pairs, rfl, rfl⟩
  · rintro ⟨pairs, rfl, rfl⟩
    exact mapM_entryOf_texts pairs

/-! ## What a file has in it -/

/-- The file can be read, and these are the entries that its text writes. -/
def Contents (tree : FileTree) (file : Path) (entries : List (Yaml × Yaml)) : Prop :=
  ∃ text, tree.readText file = .ok text ∧ Writes text entries

/-- Nothing that the text of the file writes has a tag. -/
def TagFree (tree : FileTree) (file : Path) : Prop :=
  ∀ text, tree.readText file = .ok text → ∀ value, Yaml.ofText text = .ok value →
    value.isTagFree = true

theorem tagFree_iff {tree : FileTree} {file : Path} :
    TagFree tree file ↔
      ((tree.readText file).toOption.all fun text =>
        (Yaml.ofText text).toOption.all Yaml.isTagFree) = true := by
  unfold TagFree
  cases tree.readText file with
  | error error => simp [Except.toOption]
  | ok text =>
      simp only [Except.ok.injEq, forall_eq', Except.toOption, Option.all_some]
      cases Yaml.ofText text with
      | error error => simp
      | ok value => simp

instance (tree : FileTree) (file : Path) : Decidable (TagFree tree file) :=
  decidable_of_iff _ tagFree_iff.symm

section Contents

variable {tree : FileTree} {file : Path}

theorem Contents.unique {entries others : List (Yaml × Yaml)} (one : Contents tree file entries)
    (other : Contents tree file others) : entries = others := by
  obtain ⟨text, read, writes⟩ := one
  obtain ⟨_, again, writesToo⟩ := other
  cases read.symm.trans again
  exact writes.unique writesToo

/-- What is read of a data file is read of the entries that its text writes. -/
theorem Contents.read_eq {given : List (Yaml × Yaml)} (contents : Contents tree file given) :
    DataFile.read tree file = (given.mapM entryOf).map (DataFile.mk file) := by
  obtain ⟨text, read, writes⟩ := contents
  unfold DataFile.read FileTree.readTextFor
  rw [read, ← writes.ofText_eq file]
  rfl

/-- A data file that is read has contents. -/
theorem exists_contents_of_read {data : DataFile} (isRead : read tree file = .ok data) :
    ∃ given, Contents tree file given := by
  unfold DataFile.read FileTree.readTextFor at isRead
  cases read : tree.readText file with
  | error error =>
      rw [read] at isRead
      cases isRead
  | ok text =>
      rw [read] at isRead
      change (ofText file text).map (DataFile.mk file) = _ at isRead
      cases found : ofText file text with
      | error failure =>
          rw [found] at isRead
          cases isRead
      | ok entries =>
          obtain ⟨given, writes⟩ := exists_writes_of_ofText found
          exact ⟨given, text, read, writes⟩

/-- A data file is read just if the entries of its contents are. -/
theorem read_eq_ok_iff_mapM {data : DataFile} :
    read tree file = .ok data ↔
      data.path = file ∧
        ∃ given, Contents tree file given ∧ given.mapM entryOf = .ok data.entries := by
  obtain ⟨path, entries⟩ := data
  constructor
  · intro isRead
    obtain ⟨given, contents⟩ := exists_contents_of_read isRead
    rw [contents.read_eq] at isRead
    cases keys : given.mapM entryOf with
    | error failure =>
        rw [keys] at isRead
        cases isRead
    | ok read =>
        rw [keys] at isRead
        cases isRead
        exact ⟨rfl, given, contents, keys⟩
  · rintro ⟨rfl, given, contents, keys⟩
    rw [contents.read_eq, keys]
    rfl

/-- **A data file without tags is read just if the keys of its contents are texts.** -/
theorem read_eq_ok_iff (tagFree : TagFree tree file) {data : DataFile} :
    read tree file = .ok data ↔
      data.path = file ∧
        ∃ pairs, Contents tree file (texts pairs) ∧ data.entries = described pairs := by
  rw [read_eq_ok_iff_mapM]
  refine and_congr_right fun _ => ?_
  constructor
  · rintro ⟨given, ⟨text, read, writes⟩, keys⟩
    obtain ⟨pairs, rfl, described⟩ := (mapM_entryOf_eq_ok_iff fun entry member =>
      (writes.isTagFree (tagFree text read) member).1).mp keys
    exact ⟨pairs, ⟨text, read, writes⟩, described⟩
  · rintro ⟨pairs, contents, described⟩
    exact ⟨texts pairs, contents, described ▸ mapM_entryOf_texts pairs⟩

end Contents

end SampleMethods.DataFile
