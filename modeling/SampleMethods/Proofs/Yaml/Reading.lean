import SampleMethods.Proofs.Yaml.Value
import SampleMethods.Yaml.Value.Reader

/-!
# What is read as a YAML value

A reader gives a property when all results it comes to have it. The reader of
entries refuses a key that is like one before it, and nodes are put together from
nodes, also where an alias leads back to one. So the value that a text writes has
distinct keys (`distinctKeys_of_ofText`).
-/

set_option autoImplicit false

namespace SampleMethods.Yaml

namespace Read

/-! ## Properties of results -/

/-- Every result that the reader comes to has the property. -/
def Gives {α : Type} (property : α → Prop) (reading : Read α) : Prop :=
  ∀ ⦃state result after⦄, reading.run state = .ok (result, after) → property result

section Gives

variable {α β : Type} {property : α → Prop} {other : β → Prop}

theorem Gives.pure {result : α} (holds : property result) :
    Gives property (Pure.pure result : Read α) := by
  intro state found after run
  cases run
  exact holds

theorem Gives.throw (error : Error) : Gives property (MonadExcept.throw error : Read α) := by
  intro state found after run
  cases run

theorem Gives.bind {reading : Read α} {next : α → Read β} (first : Gives property reading)
    (further : ∀ result, property result → Gives other (next result)) :
    Gives other (reading >>= next) := by
  intro state found after run
  rw [StateT.run_bind] at run
  cases middle : reading.run state with
  | error error =>
      rw [middle] at run
      cases run
  | ok pair =>
      rw [middle] at run
      exact further pair.1 (first middle) run

/-- A reader whose result does not matter may come first. -/
theorem Gives.after {reading : Read α} {next : α → Read β}
    (further : ∀ result, Gives other (next result)) : Gives other (reading >>= next) :=
  Gives.bind (fun _ _ _ _ => trivial : Gives (fun _ => True) reading) fun result _ => further result

theorem Gives.ite {test : Prop} [Decidable test] {reading otherwise : Read α}
    (one : Gives property reading) (two : Gives property otherwise) :
    Gives property (if test then reading else otherwise) := by
  by_cases holds : test
  · rw [if_pos holds]
    exact one
  · rw [if_neg holds]
    exact two

end Gives

/-! ## Readers of values -/

theorem distinctKeys_of_integer? {text : List Char} {value : Yaml}
    (read : Scalar.integer? text = some (.ok value)) : DistinctKeys value := by
  rw [Scalar.integer?] at read
  split at read
  · cases read
    exact .number _
  · obtain ⟨_, _, isError⟩ := Option.map_eq_some_iff.mp read
    cases isError

theorem distinctKeys_of_plain {text : String} {value : Yaml}
    (read : Scalar.plain text = .ok value) : DistinctKeys value := by
  simp only [Scalar.plain] at read
  split at read
  · cases read
    exact .null
  · split at read
    · cases read
      exact .bool _
    · split at read
      · rename_i result found
        rw [read] at found
        exact distinctKeys_of_integer? found
      · split at read
        · cases read
          exact .number _
        · cases read
          exact .string _

theorem distinctKeys_of_promised {text wanted : String} {given : Option Yaml} {value : Yaml}
    (distinct : ∀ found, given = some found → DistinctKeys found)
    (read : Scalar.promised text wanted given = .ok value) : DistinctKeys value := by
  cases given with
  | none => cases read
  | some found =>
      cases read
      exact distinct _ rfl

theorem distinctKeys_of_ofTag {tag text : String} {value : Yaml}
    (read : Scalar.ofTag tag text = .ok value) : DistinctKeys value := by
  rw [Scalar.ofTag] at read
  split at read
  · refine distinctKeys_of_promised (fun found isFound => ?_) read
    obtain ⟨_, _, rfl⟩ := Option.map_eq_some_iff.mp isFound
    exact .bool _
  · split at read
    · split at read
      · rename_i result found
        rw [read] at found
        exact distinctKeys_of_integer? found
      · cases read
    · split at read
      · refine distinctKeys_of_promised (fun found isFound => ?_) read
        obtain ⟨_, _, rfl⟩ := Option.map_eq_some_iff.mp isFound
        exact .number _
      · split at read
        · refine distinctKeys_of_promised (fun found isFound => ?_) read
          split at isFound
          · cases isFound
            exact .null
          · cases isFound
        · cases read
          exact .string _

/-- A value that is no collection has distinct keys. -/
theorem distinctKeys_of_scalar {tag : Option String} {text : String} {plain : Bool}
    {value : Yaml} (read : scalar tag text plain = .ok value) : DistinctKeys value := by
  unfold scalar at read
  split at read
  · exact distinctKeys_of_ofTag read
  · split at read
    · exact distinctKeys_of_plain read
    · cases read
      exact .string text

theorem distinctKeys_withTag (tag : Option String) {value : Yaml} (distinct : DistinctKeys value) :
    DistinctKeys (withTag tag value) := by
  rw [withTag]
  cases ownTag? tag with
  | none => exact distinct
  | some own => exact .tagged own distinct

theorem gives_jump {α : Type} {property : α → Prop} (document : Document) (anchor : Nat)
    {reading : Read α} (gives : Gives property reading) :
    Gives property (jump document anchor reading) := by
  refine .after fun state => ?_
  have onward : Gives property (do
      set (⟨document.parts.drop ((document.targets.lookup anchor).getD 0),
        state.jumps + 1⟩ : Reading)
      let result ← reading
      modify fun after => { after with rest := state.rest }
      return result) :=
    .after fun _ => .bind gives fun _ holds => .after fun _ => .pure holds
  exact .ite (.after fun _ => onward) onward

/-- Items with distinct keys are read as a sequence with distinct keys. -/
theorem gives_items {document : Document} {item : Step → Read Yaml}
    (gives : ∀ step, Gives DistinctKeys (item step)) {rounds : Nat} {read : List Yaml}
    (distinct : DistinctKeys (.sequence read.reverse)) :
    Gives (fun found => DistinctKeys (.sequence found)) (items document item rounds read) := by
  induction rounds generalizing read with
  | zero => exact .pure distinct
  | succ rounds ih =>
      refine .after fun part => ?_
      split
      · exact .after fun _ => .pure distinct
      · refine .bind (gives _) fun value valueDistinct => ih ?_
        rw [List.reverse_cons]
        exact distinct.sequence_concat valueDistinct

/-- Keys and values with distinct keys are read as a mapping with distinct keys, since a key
that is like one before it is refused. -/
theorem gives_entries {document : Document} {mark : Mark} {path : List Step} {key : Read Yaml}
    {value : Step → Read Yaml} (givesKey : Gives DistinctKeys key)
    (givesValue : ∀ step, Gives DistinctKeys (value step)) {rounds : Nat}
    {read : List (Yaml × Yaml)} (distinct : DistinctKeys (.mapping read.reverse)) :
    Gives (fun found => DistinctKeys (.mapping found))
      (entries document mark path key value rounds read) := by
  -- The entries that are read lie in front in reverse, and that they are unlike is kept.
  induction rounds generalizing read with
  | zero => exact .pure distinct
  | succ rounds ih =>
      refine .after fun part => ?_
      split
      · exact .after fun _ => .pure distinct
      · refine .bind givesKey fun given givenDistinct => ?_
        cases repeated : read.any fun entry => entry.1.isLike given with
        | true => exact .bind (.throw _ : Gives (fun _ => False) _) fun _ => False.elim
        | false =>
            refine .bind (givesValue _) fun found foundDistinct => ih ?_
            rw [List.reverse_cons]
            refine distinct.mapping_concat givenDistinct foundDistinct fun entry member => ?_
            exact Bool.eq_false_iff.mpr
              (List.any_eq_false.mp repeated entry (List.mem_reverse.mp member))

theorem gives_ofScalar {mark : Mark} {path : List Step} {tag : Option String} {text : String}
    {plain : Bool} : Gives DistinctKeys (ofScalar mark path (scalar tag text plain)) := by
  cases read : scalar tag text plain with
  | error problem => exact .throw _
  | ok value => exact .pure (distinctKeys_of_scalar read)

section Nodes

variable {document : Document} {inside : Option (List Step → Read Yaml)}

theorem gives_nested (mark : Mark) :
    (∀ reader, inside = some reader → ∀ path, Gives DistinctKeys (reader path)) →
      Gives (fun reader => ∀ path, Gives DistinctKeys (reader path))
        (match inside with
          | some inside => return inside
          | none => throw (.tooDeep mark) : Read (List Step → Read Yaml)) := by
  intro gives
  cases inside with
  | none => exact .throw _
  | some reader => exact .pure (gives reader rfl)

/-- A node is read as a value with distinct keys, if the nodes inside of it are. -/
theorem gives_content (gives : ∀ reader, inside = some reader →
      ∀ path, Gives DistinctKeys (reader path)) (path : List Step) (part : Part) :
    Gives DistinctKeys (content document inside path part) := by
  unfold content
  cases part.kind with
  | scalar tag text plain =>
      exact .bind gives_ofScalar fun _ distinct => .pure (distinctKeys_withTag tag distinct)
  | sequenceStart tag =>
      refine .bind (gives_nested part.mark gives) fun reader each => .after fun state => ?_
      have none : DistinctKeys (.sequence []) := .sequence fun _ member => nomatch member
      exact .bind (gives_items (fun step => each (step :: path)) none) fun _ distinct =>
        .pure (distinctKeys_withTag tag distinct)
  | mappingStart tag =>
      refine .bind (gives_nested part.mark gives) fun reader each => .after fun state => ?_
      have none : DistinctKeys (.mapping []) :=
        .mapping .nil (fun _ member => nomatch member) fun _ member => nomatch member
      exact .bind (gives_entries (each path) (fun step => each (step :: path)) none)
        fun _ distinct => .pure (distinctKeys_withTag tag distinct)
  | aliasOf anchor => exact .throw _
  | sequenceEnd => exact .throw _
  | mappingEnd => exact .throw _

theorem gives_node (gives : ∀ reader, inside = some reader →
      ∀ path, Gives DistinctKeys (reader path)) (path : List Step) :
    Gives DistinctKeys (node document inside path) := by
  refine .after fun part => ?_
  split
  · exact gives_jump document _ (.after fun _ => gives_content gives path _)
  · exact gives_content gives path part

end Nodes

theorem gives_value (document : Document) (depth : Nat) (path : List Step) :
    Gives DistinctKeys (value document depth path) := by
  induction depth generalizing path with
  | zero => exact gives_node (fun _ isNone => absurd isNone (by simp)) path
  | succ depth ih =>
      refine gives_node (fun reader isReader => ?_) path
      cases isReader
      exact ih

end Read

/-- What is looked at behind the value of a document only makes it fail. -/
theorem eq_of_finished {document : Document} {found value : Yaml} :
    (do
      if let some error := document.error then throw error
      if document.followed then throw .severalDocuments
      return found : Except Error Yaml) = .ok value → found = value := by
  intro finished
  cases failed : document.error with
  | some error =>
      rw [failed] at finished
      cases finished
  | none =>
      rw [failed] at finished
      cases followed : document.followed with
      | true =>
          rw [followed] at finished
          cases finished
      | false =>
          rw [followed] at finished
          cases finished
          rfl

/-- **The value that a text writes has distinct keys.** -/
theorem distinctKeys_of_ofText {text : String} {value : Yaml}
    (read : ofText text = .ok value) : DistinctKeys value := by
  unfold ofText at read
  dsimp only at read
  split at read
  · cases run : (Read.value (Document.ofText text) depthLimit []).run
      ⟨(Document.ofText text).parts, 0⟩ with
    | error error =>
        rw [StateT.run'_eq, run] at read
        cases read
    | ok pair =>
        rw [StateT.run'_eq, run] at read
        obtain rfl := eq_of_finished read
        exact Read.gives_value _ _ _ run
  · obtain rfl := eq_of_finished read
    exact .null

end SampleMethods.Yaml
