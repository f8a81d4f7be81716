import SampleMethods.Yaml.Event.Reader

/-!
# YAML documents

A text is read as far as its first document goes, and as far as it can be read.
What is wrong behind the parts that could be read is kept beside them, because
an error in the value that they write comes first.

Anchors are numbered. A new name gets the number of the names that are known, and
so does a name that is used again; an alias leads to the last part that has the
number of its anchor.
-/

set_option autoImplicit false

namespace SampleMethods.Yaml

/-- A part of a document: an event whose anchor, or the anchor it names, is a number. -/
inductive Part.Kind where
  | aliasOf (anchor : Nat)
  | scalar (tag : Option String) (text : String) (plain : Bool)
  | sequenceStart (tag : Option String)
  | sequenceEnd
  | mappingStart (tag : Option String)
  | mappingEnd
deriving DecidableEq, Repr

/-- A part of a document and the place where it starts. -/
structure Part where
  kind : Part.Kind
  mark : Mark
deriving DecidableEq, Repr

/-- The first document of a text. -/
structure Document where
  parts : List Part
  /-- The numbers of anchors and the positions of the parts that have them, the last one
  first. -/
  targets : List (Nat × Nat)
  /-- Whether the text has a document at all. -/
  present : Bool
  /-- Why the document could not be read to its end. -/
  error : Option Error
  /-- Whether something follows the document. -/
  followed : Bool
deriving Repr

namespace Document

/-! ## Anchors -/

/-- What has been read of a document. The parts are reversed. -/
structure Draft where
  parts : List Part
  count : Nat
  anchors : List (String × Nat)
  targets : List (Nat × Nat)

/-- Nothing has been read. -/
def Draft.empty : Draft :=
  ⟨[], 0, [], []⟩

/-- The numbers of names with one for a name, which takes the place of one there may be. -/
def number (name : String) (count : Nat) : List (String × Nat) → List (String × Nat)
  | [] => [(name, count)]
  | (other, kept) :: rest =>
    if other = name then (name, count) :: rest else (other, kept) :: number name count rest

/-- The draft with the anchor of its next part. -/
def Draft.withAnchor (draft : Draft) (anchor : Option String) : Draft :=
  match anchor with
  | none => draft
  | some name =>
    let count := draft.anchors.length
    { draft with
      anchors := number name count draft.anchors,
      targets := (count, draft.count) :: draft.targets }

/-- The draft with one more part. -/
def Draft.push (draft : Draft) (kind : Part.Kind) (mark : Mark) : Draft :=
  { draft with parts := ⟨kind, mark⟩ :: draft.parts, count := draft.count + 1 }

/-- The draft with one more event, unless that is an alias without an anchor. -/
def Draft.add (draft : Draft) (event : Event) : Except Error Draft :=
  match event.kind with
  | .aliasOf name =>
    match draft.anchors.lookup name with
    | some anchor => .ok (draft.push (.aliasOf anchor) event.mark)
    | none => .error (.unknownAnchor event.mark)
  | .scalar properties text plain =>
    .ok ((draft.withAnchor properties.anchor).push (.scalar properties.tag text plain) event.mark)
  | .sequenceStart properties =>
    .ok ((draft.withAnchor properties.anchor).push (.sequenceStart properties.tag) event.mark)
  | .sequenceEnd => .ok (draft.push .sequenceEnd event.mark)
  | .mappingStart properties =>
    .ok ((draft.withAnchor properties.anchor).push (.mappingStart properties.tag) event.mark)
  | .mappingEnd => .ok (draft.push .mappingEnd event.mark)

/-! ## Reading -/

/-- The document that a draft is. -/
def ofDraft (draft : Draft) (error : Option Error) (followed : Bool) : Document where
  parts := draft.parts.reverse
  targets := draft.targets
  present := true
  error := error
  followed := followed

/-- The document that cannot be read for an error behind a draft. -/
def broken (draft : Draft) (error : Error) : Document :=
  ofDraft draft (some error) false

/-- Reads on up to the end of the document. -/
def readParts : Nat → Progress → Draft → Document
  | 0, _, draft => broken draft .endOfDocument
  | rounds + 1, progress, draft =>
    match Produce.next?.run progress with
    | .error error => broken draft error
    | .ok (some event, progress) =>
      match draft.add event with
      | .error error => broken draft error
      | .ok draft => readParts rounds progress draft
    | .ok (none, progress) =>
      match Produce.documentEnd.run progress with
      | .error error => broken draft error
      | .ok (_, progress) =>
        match (Produce.isFollowed (rounds + 1)).run progress with
        | .ok (followed, _) => ofDraft draft none followed
        | .error _ => ofDraft draft none true

/-- A bound for the number of the events that a text of so many characters has. -/
def eventLimit (length : Nat) : Nat :=
  16 * (length + 2)

/-- The first document of a text. -/
def ofText (text : String) : Document :=
  let characters := text.toList
  let progress : Progress := ⟨Tokenizer.ofText characters, [], []⟩
  match controlOffset? 0 characters with
  | some offset => broken .empty (.controlCharacter offset)
  | none =>
    match (Produce.documentStart (characters.length + 1)).run progress with
    | .error error => broken .empty error
    | .ok (false, _) => ⟨[], [], false, none, false⟩
    | .ok (true, progress) => readParts (eventLimit characters.length) progress .empty

end Document

end SampleMethods.Yaml
