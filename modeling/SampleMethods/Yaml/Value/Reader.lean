import SampleMethods.Yaml.Document
import SampleMethods.Yaml.Scalar

/-!
# Reading YAML values

The value that a document writes. An alias stands for a copy of what its anchor
is at. Two bounds keep that finite: collections may be nested only so deep, and
aliases may be followed only so often.
-/

set_option autoImplicit false

namespace SampleMethods.Yaml

/-- How deep collections may be nested. -/
def depthLimit : Nat := 128

/-- How often aliases may be followed, for each part of a document. -/
def aliasLimit : Nat := 100

/-- What is known while a value is read. -/
structure Reading where
  rest : List Part
  /-- How often an alias was followed. -/
  jumps : Nat

/-- What reads values, or refuses the document. -/
abbrev Read := StateT Reading (Except Error)

namespace Read

/-- The next part, which stays where it is. -/
def peek (document : Document) : Read Part := do
  match (← get).rest with
  | part :: _ => return part
  | [] => throw (document.error.getD .endOfDocument)

/-- The next part. -/
def take (document : Document) : Read Part := do
  let part ← peek document
  modify fun state => { state with rest := state.rest.tail }
  return part

/-- Reads the parts from the last one on that has the number of an anchor, and goes on behind
the alias. -/
def jump {α : Type} (document : Document) (anchor : Nat) (reading : Read α) : Read α := do
  let state ← get
  if document.parts.length * aliasLimit < state.jumps + 1 then
    throw .tooManyAliases
  set (⟨document.parts.drop ((document.targets.lookup anchor).getD 0), state.jumps + 1⟩ : Reading)
  let result ← reading
  modify fun after => { after with rest := state.rest }
  return result

/-- The value, or the error that its problem is at a place. -/
def ofScalar (mark : Mark) (path : List Step) (value : Except ValueProblem Yaml) : Read Yaml :=
  match value with
  | .ok value => return value
  | .error problem => throw (.value problem mark path)

/-- The tag of a document's own that a tag is, without the exclamation mark in front. -/
def ownTag? (tag : Option String) : Option String :=
  tag.bind fun tag =>
    match tag.toList with
    | ['!'] => some "!"
    | '!' :: rest => some (String.ofList rest)
    | _ => none

/-- The value with its tag, if that is one of the document's own. -/
def withTag (tag : Option String) (value : Yaml) : Yaml :=
  match ownTag? tag with
  | some tag => .tagged tag value
  | none => value

/-- The value of a scalar without its own tag. -/
def scalar (tag : Option String) (text : String) (plain : Bool) : Except ValueProblem Yaml :=
  match tag, ownTag? tag with
  | some tag, none => Scalar.ofTag tag text
  | _, _ => if plain then Scalar.plain text else .ok (.string text)

/-- How an error names a key that a mapping has twice. -/
def repeatedKey : Yaml → RepeatedKey
  | .null => .null
  | .bool value => .bool value
  | .number value => .number value.renderPlain
  | .string text => .string text
  | _ => .other

/-- The step to the value of a key that starts with a part. -/
def stepTo (part : Part) : Step :=
  match part.kind with
  | .scalar _ text _ => .key text
  | _ => .unknownKey

/-- Reads the items of a sequence up to its end. -/
def items (document : Document) (item : Step → Read Yaml) :
    Nat → List Yaml → Read (List Yaml)
  | 0, items => return items.reverse
  | rounds + 1, read => do
    match (← peek document).kind with
    | .sequenceEnd =>
      discard (take document)
      return read.reverse
    | _ =>
      let value ← item (.item read.length)
      items document item rounds (value :: read)

/-- Reads the entries of a mapping up to its end. -/
def entries (document : Document) (mark : Mark) (path : List Step) (key : Read Yaml)
    (value : Step → Read Yaml) : Nat → List (Yaml × Yaml) → Read (List (Yaml × Yaml))
  | 0, read => return read.reverse
  | rounds + 1, read => do
    let part ← peek document
    match part.kind with
    | .mappingEnd =>
      discard (take document)
      return read.reverse
    | _ =>
      let given ← key
      if read.any fun entry => entry.1.isLike given then
        throw (.value (.repeatedKey (repeatedKey given)) mark path)
      let entry := (given, ← value (stepTo part))
      entries document mark path key value rounds (entry :: read)

/-- Reads a node that starts with a part and is no alias. `inside` reads the nodes in it, if
there may be any at its depth. -/
def content (document : Document) (inside : Option (List Step → Read Yaml)) (path : List Step)
    (part : Part) : Read Yaml := do
  let nested : Read (List Step → Read Yaml) :=
    match inside with
    | some inside => return inside
    | none => throw (.tooDeep part.mark)
  match part.kind with
  | .scalar tag text plain =>
    return withTag tag (← ofScalar part.mark path (scalar tag text plain))
  | .sequenceStart tag =>
    let node ← nested
    let rounds := (← get).rest.length + 1
    return withTag tag (.sequence (← items document (fun step => node (step :: path)) rounds []))
  | .mappingStart tag =>
    let node ← nested
    let rounds := (← get).rest.length + 1
    return withTag tag (.mapping (← entries document part.mark path (node path)
      (fun step => node (step :: path)) rounds []))
  | .aliasOf _ | .sequenceEnd | .mappingEnd => throw .endOfDocument

/-- Reads a node. -/
def node (document : Document) (inside : Option (List Step → Read Yaml)) (path : List Step) :
    Read Yaml := do
  let part ← take document
  match part.kind with
  | .aliasOf anchor => jump document anchor do content document inside path (← take document)
  | _ => content document inside path part

/-- Reads a node in which collections may be nested so deep. -/
def value (document : Document) : Nat → List Step → Read Yaml
  | 0 => node document none
  | depth + 1 => node document (some (value document depth))

end Read

/-- The value that the only document of a text writes. -/
def ofText (text : String) : Except Error Yaml := do
  let document := Document.ofText text
  let value ←
    if document.present then
      (Read.value document depthLimit []).run' ⟨document.parts, 0⟩
    else pure null
  if let some error := document.error then
    throw error
  if document.followed then
    throw .severalDocuments
  return value

end SampleMethods.Yaml
