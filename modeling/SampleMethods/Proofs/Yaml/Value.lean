import SampleMethods.Yaml.Value

/-!
# The parts of YAML values

A value has distinct keys when no mapping in it has two keys that are alike, and
it is tag-free when nothing in it has a tag. In a mapping with distinct keys the
entry for a text is found wherever it stands (`entry?_eq_some_iff_mem`), and a key
of a tag-free mapping is a text only if it is written as one.
-/

set_option autoImplicit false

namespace SampleMethods.Yaml

/-! ## Distinct keys -/

/-- No two entries have keys that are alike. -/
def UnlikeKeys (entries : List (Yaml × Yaml)) : Prop :=
  entries.Pairwise fun earlier later => earlier.1.isLike later.1 = false

/-- No mapping in the value has two keys that are alike. -/
inductive DistinctKeys : Yaml → Prop where
  | null : DistinctKeys .null
  | bool (value : Bool) : DistinctKeys (.bool value)
  | number (value : Number) : DistinctKeys (.number value)
  | string (text : String) : DistinctKeys (.string text)
  | sequence {items : List Yaml} :
      (∀ item ∈ items, DistinctKeys item) → DistinctKeys (.sequence items)
  | mapping {entries : List (Yaml × Yaml)} :
      UnlikeKeys entries → (∀ entry ∈ entries, DistinctKeys entry.1) →
        (∀ entry ∈ entries, DistinctKeys entry.2) → DistinctKeys (.mapping entries)
  | tagged (tag : String) {value : Yaml} : DistinctKeys value → DistinctKeys (.tagged tag value)

namespace DistinctKeys

theorem sequence_concat {items : List Yaml} {item : Yaml}
    (distinct : DistinctKeys (.sequence items)) (itemDistinct : DistinctKeys item) :
    DistinctKeys (.sequence (items ++ [item])) := by
  cases distinct with
  | sequence each =>
      refine .sequence fun other member => ?_
      rcases List.mem_append.mp member with before | last
      · exact each other before
      · rw [List.mem_singleton.mp last]
        exact itemDistinct

/-- An entry may be put behind others that have no key like its own. -/
theorem mapping_concat {entries : List (Yaml × Yaml)} {key value : Yaml}
    (distinct : DistinctKeys (.mapping entries)) (keyDistinct : DistinctKeys key)
    (valueDistinct : DistinctKeys value) (fresh : ∀ entry ∈ entries, entry.1.isLike key = false) :
    DistinctKeys (.mapping (entries ++ [(key, value)])) := by
  cases distinct with
  | mapping different keys values =>
      refine .mapping ?_ (fun entry member => ?_) (fun entry member => ?_)
      · rw [UnlikeKeys, List.pairwise_append]
        refine ⟨different, List.pairwise_singleton _ _, fun entry member last isLast => ?_⟩
        rw [List.mem_singleton.mp isLast]
        exact fresh entry member
      · rcases List.mem_append.mp member with before | last
        · exact keys entry before
        · rw [List.mem_singleton.mp last]
          exact keyDistinct
      · rcases List.mem_append.mp member with before | last
        · exact values entry before
        · rw [List.mem_singleton.mp last]
          exact valueDistinct

end DistinctKeys

/-- The entry for a text is the one with that text as its key. -/
theorem entry?_eq_some_iff_mem {entries : List (Yaml × Yaml)} (unlike : UnlikeKeys entries)
    {name : String} {value : Yaml} :
    entry? entries name = some value ↔ (.string name, value) ∈ entries := by
  induction entries with
  | nil => simp [ entry?]
  | cons first rest ih =>
      obtain ⟨notFirst, restUnlike⟩ := List.pairwise_cons.mp unlike
      obtain ⟨key, firstValue⟩ := first
      cases key with
      | string text =>
          rw [ entry?, List.mem_cons, Prod.mk.injEq, string.injEq]
          by_cases same : text = name
          · subst same
            have absent : (string text, value) ∉ rest := fun member => by
              have differs := notFirst _ member
              simp [isLike] at differs
            simp only [if_true, Option.some.injEq, true_and, absent, or_false]
            exact eq_comm
          · simp only [if_neg same, Ne.symm same, false_and, false_or]
            exact ih restUnlike
      | _ => simpa [ entry?] using ih restUnlike

/-- Two entries with the same text as their key are one. -/
theorem UnlikeKeys.texts_nodup {entries : List (String × Yaml)}
    (unlike : UnlikeKeys (entries.map fun (name, value) => (.string name, value))) :
    (entries.map (·.1)).Nodup := by
  rw [UnlikeKeys, List.pairwise_map] at unlike
  rw [List.Nodup, List.pairwise_map]
  refine unlike.imp fun {first second} differs same => ?_
  simp [isLike, same] at differs

/-! ## Tags -/

mutual

/-- Whether nothing in the value has a tag. -/
def isTagFree : Yaml → Bool
  | null | bool _ | number _ | string _ => true
  | sequence items => areTagFree items
  | mapping entries => haveTagFree entries
  | tagged _ _ => false

/-- Whether nothing in the values has a tag. -/
def areTagFree : List Yaml → Bool
  | [] => true
  | item :: items => item.isTagFree && areTagFree items

/-- Whether nothing in the keys and values has a tag. -/
def haveTagFree : List (Yaml × Yaml) → Bool
  | [] => true
  | (key, value) :: entries => key.isTagFree && value.isTagFree && haveTagFree entries

end

theorem areTagFree_iff {items : List Yaml} :
    areTagFree items = true ↔ ∀ item ∈ items, item.isTagFree = true := by
  induction items with
  | nil => simp [areTagFree]
  | cons item items ih => rw [areTagFree, Bool.and_eq_true, ih, List.forall_mem_cons]

theorem haveTagFree_iff {entries : List (Yaml × Yaml)} :
    haveTagFree entries = true ↔
      ∀ entry ∈ entries, entry.1.isTagFree = true ∧ entry.2.isTagFree = true := by
  induction entries with
  | nil => simp [haveTagFree]
  | cons entry entries ih =>
      rw [haveTagFree, Bool.and_eq_true, Bool.and_eq_true, ih, List.forall_mem_cons]

/-- What has no tag is a text only if it is written as one. -/
theorem text?_eq_some_iff {value : Yaml} (tagFree : value.isTagFree = true) {text : String} :
    value.text? = some text ↔ value = .string text := by
  cases value with
  | tagged tag inner => simp [isTagFree] at tagFree
  | _ => simp [text?, untagged]

end SampleMethods.Yaml
