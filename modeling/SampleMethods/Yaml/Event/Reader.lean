import SampleMethods.Yaml.Event
import SampleMethods.Yaml.Token.Reader

/-!
# Reading the events of YAML documents

What may come next in a document is kept in a stack of expectations, the next
one on top. Every step takes the expectation from the top, looks at the next
token, puts down what is expected now, and gives one event.

A node without content stands for a scalar without text.
-/

set_option autoImplicit false

namespace SampleMethods.Yaml

/-! ## Expectations -/

/-- What may come next. `start` is where a collection starts. -/
inductive Expectation where
  /-- A node that may be a block. `empty` says whether it may be missing in front of a marker
  between documents. -/
  | document (empty : Bool)
  | blockItem (start : Mark)
  /-- An item of a block sequence that is not indented by more than its key. -/
  | levelItem
  | blockKey (start : Mark)
  | blockValue (start : Mark)
  | flowItem (start : Mark) (first : Bool)
  /-- The key of a mapping that has one entry and no braces. -/
  | pairKey (start : Mark)
  | pairValue (start : Mark)
  | pairEnd (start : Mark)
  | flowKey (start : Mark) (first : Bool)
  /-- The value behind a key. `missing` says that the key has no sign, so there is no value. -/
  | flowValue (start : Mark) (missing : Bool)
deriving DecidableEq, Repr

/-- What is known while the events of a document are read. -/
structure Progress where
  tokenizer : Tokenizer
  expected : List Expectation
  /-- The handles of tags that may be used, and what they stand for. -/
  handles : List (String × String)
deriving Repr

/-- What reads events, or refuses the document. -/
abbrev Produce := StateT Progress (Except Error)

namespace Produce

/-- Reads tokens. -/
def tokens {α : Type} (reading : Tokenize α) : Produce α := do
  let state ← get
  let (result, tokenizer) ← reading.run state.tokenizer
  set { state with tokenizer := tokenizer }
  return result

/-- The next token, which stays where it is. -/
def peek : Produce Token :=
  tokens Tokenize.peek

/-- Hands out the next token. -/
def take : Produce Token :=
  tokens Tokenize.take

/-- Refuses the document for a problem at a place. -/
def fail {α : Type} (context : Option Context) (place : Mark) (problem : Problem) : Produce α :=
  throw (.form ⟨problem, place, context⟩)

/-- Puts down what is expected next. -/
def expect (expectation : Expectation) : Produce Unit :=
  modify fun state => { state with expected := expectation :: state.expected }

/-! ## Nodes -/

/-- A node without content. -/
def emptyNode (mark : Mark) : Event :=
  ⟨.scalar .none "" true, mark⟩

/-- The tag that a token stands for. -/
def resolveTag (handle suffix : String) (start mark : Mark) : Produce String := do
  if handle.isEmpty then
    return suffix
  match (← get).handles.lookup handle with
  | some address => return address ++ suffix
  | none => fail (some ⟨.node, start⟩) mark .undefinedHandle

/-- The parts of the properties of a node, as far as they have been read. -/
structure Parts where
  anchor : Option String
  tag : Option (String × String × Mark)

/-- Reads an anchor, if there is one. -/
def anchor? : Produce (Option String) := do
  match (← peek).kind with
  | .anchor name =>
    discard take
    return some name
  | _ => return none

/-- Reads a tag, if there is one. -/
def tag? : Produce (Option (String × String × Mark)) := do
  let token ← peek
  match token.kind with
  | .tag handle suffix =>
    discard take
    return some (handle, suffix, token.start)
  | _ => return none

/-- Reads an anchor and a tag, in any order. -/
def parts : Produce Parts := do
  match ← anchor? with
  | some anchor => return ⟨some anchor, ← tag?⟩
  | none =>
    match ← tag? with
    | some tag => return ⟨← anchor?, some tag⟩
    | none => return ⟨none, none⟩

/-- Reads the properties of a node. -/
def properties (start : Mark) : Produce Properties := do
  let parts ← parts
  match parts.tag with
  | some (handle, suffix, mark) =>
    return ⟨parts.anchor, some (← resolveTag handle suffix start mark)⟩
  | none => return ⟨parts.anchor, none⟩

/-- The properties of a scalar that has content: a tag that is an exclamation mark is none. -/
def ofScalar (properties : Properties) : Properties :=
  if properties.tag == some "!" then { properties with tag := none } else properties

/-- Reads the start of a node. `block` says whether it may be a block, and `level` whether it
may be a block sequence that is not indented by more than its key. -/
def node (block level : Bool) : Produce Event := do
  let first ← peek
  if let .aliasOf name := first.kind then
    discard take
    return ⟨.aliasOf name, first.start⟩
  let start := first.start
  let properties ← properties start
  let token ← peek
  match token.kind, block, level with
  | .blockEntry, _, true =>
    expect .levelItem
    return ⟨.sequenceStart properties, start⟩
  | .scalar text plain, _, _ =>
    discard take
    return ⟨.scalar (ofScalar properties) text plain, start⟩
  | .flowSequenceStart, _, _ =>
    discard take
    expect (.flowItem token.start true)
    return ⟨.sequenceStart properties, start⟩
  | .flowMappingStart, _, _ =>
    discard take
    expect (.flowKey token.start true)
    return ⟨.mappingStart properties, start⟩
  | .blockSequenceStart, true, _ =>
    discard take
    expect (.blockItem token.start)
    return ⟨.sequenceStart properties, start⟩
  | .blockMappingStart, true, _ =>
    discard take
    expect (.blockKey token.start)
    return ⟨.mappingStart properties, start⟩
  | _, _, _ =>
    if properties.isEmpty then
      fail (some ⟨if block then .blockNode else .flowNode, start⟩) token.start .missingNode
    return ⟨.scalar properties "" true, start⟩

/-- Reads the start of a node, unless the next token is one of some kinds that show that it has
no content. -/
def nodeUnless (block level : Bool) (ends : Token.Kind → Bool) (mark : Mark) : Produce Event := do
  if ends (← peek).kind then return emptyNode mark
  else node block level

/-! ## What ends a node without content -/

/-- Whether a token ends an item of a block sequence. -/
def endsBlockItem : Token.Kind → Bool
  | .blockEntry | .blockEnd => true
  | _ => false

/-- Whether a token ends an item of a sequence that is level with its key. -/
def endsLevelItem : Token.Kind → Bool
  | .blockEntry | .key | .value | .blockEnd => true
  | _ => false

/-- Whether a token ends a key or a value of a block mapping. -/
def endsBlockPart : Token.Kind → Bool
  | .key | .value | .blockEnd => true
  | _ => false

/-- Whether a token ends the key of a pair. -/
def endsPairKey : Token.Kind → Bool
  | .value | .flowEntry | .flowSequenceEnd => true
  | _ => false

/-- Whether a token ends the value of a pair. -/
def endsPairValue : Token.Kind → Bool
  | .flowEntry | .flowSequenceEnd => true
  | _ => false

/-- Whether a token ends a key of a flow mapping. -/
def endsFlowKey : Token.Kind → Bool
  | .value | .flowEntry | .flowMappingEnd => true
  | _ => false

/-- Whether a token ends a value of a flow mapping. -/
def endsFlowValue : Token.Kind → Bool
  | .flowEntry | .flowMappingEnd => true
  | _ => false

/-- Whether a token ends a document. -/
def endsDocument : Token.Kind → Bool
  | .version .. | .tagDirective .. | .documentStart | .documentEnd | .streamEnd => true
  | _ => false

/-! ## Collections -/

/-- Goes on in a block sequence. -/
def blockItem (start : Mark) : Produce Event := do
  let token ← peek
  match token.kind with
  | .blockEntry =>
    discard take
    expect (.blockItem start)
    nodeUnless true false endsBlockItem token.stop
  | .blockEnd =>
    discard take
    return ⟨.sequenceEnd, token.start⟩
  | _ => fail (some ⟨.blockSequence, start⟩) token.start .missingDash

/-- Goes on in a block sequence that is level with its key. -/
def levelItem : Produce Event := do
  let token ← peek
  match token.kind with
  | .blockEntry =>
    discard take
    expect .levelItem
    nodeUnless true false endsLevelItem token.stop
  | _ => return ⟨.sequenceEnd, token.start⟩

/-- Goes on in a block mapping, where a key may come. -/
def blockKey (start : Mark) : Produce Event := do
  let token ← peek
  match token.kind with
  | .key =>
    discard take
    expect (.blockValue start)
    nodeUnless true true endsBlockPart token.stop
  | .blockEnd =>
    discard take
    return ⟨.mappingEnd, token.start⟩
  | _ => fail (some ⟨.blockMapping, start⟩) token.start .missingKey

/-- Goes on in a block mapping, where a value may come. -/
def blockValue (start : Mark) : Produce Event := do
  let token ← peek
  expect (.blockKey start)
  match token.kind with
  | .value =>
    discard take
    nodeUnless true true endsBlockPart token.stop
  | _ => return emptyNode token.start

/-- Goes on in a flow sequence behind a comma, or at its start. -/
def flowItemOrEnd (start : Mark) : Produce Event := do
  let token ← peek
  match token.kind with
  | .flowSequenceEnd =>
    discard take
    return ⟨.sequenceEnd, token.start⟩
  | .key =>
    discard take
    expect (.pairKey start)
    return ⟨.mappingStart .none, token.start⟩
  | _ =>
    expect (.flowItem start false)
    node false false

/-- Goes on in a flow sequence. -/
def flowItem (start : Mark) (first : Bool) : Produce Event := do
  let token ← peek
  match token.kind, first with
  | .flowSequenceEnd, _ | _, true => flowItemOrEnd start
  | .flowEntry, false =>
    discard take
    flowItemOrEnd start
  | _, false => fail (some ⟨.flowSequence, start⟩) token.start .missingSequenceComma

/-- Reads the key of a pair. Where there is none, the token that shows it is passed over. -/
def pairKey (start : Mark) : Produce Event := do
  let token ← peek
  expect (.pairValue start)
  if endsPairKey token.kind then
    discard take
    return emptyNode token.stop
  else node false false

/-- Reads the value of a pair. -/
def pairValue (start : Mark) : Produce Event := do
  let token ← peek
  expect (.pairEnd start)
  match token.kind with
  | .value =>
    discard take
    nodeUnless false false endsPairValue (← peek).start
  | _ => return emptyNode token.start

/-- Ends a pair. -/
def pairEnd (start : Mark) : Produce Event := do
  expect (.flowItem start false)
  return ⟨.mappingEnd, (← peek).start⟩

/-- Goes on in a flow mapping behind a comma, or at its start. -/
def flowKeyOrEnd (start : Mark) : Produce Event := do
  let token ← peek
  match token.kind with
  | .flowMappingEnd =>
    discard take
    return ⟨.mappingEnd, token.start⟩
  | .key =>
    discard take
    expect (.flowValue start false)
    nodeUnless false false endsFlowKey (← peek).start
  | _ =>
    expect (.flowValue start true)
    node false false

/-- Goes on in a flow mapping, where a key may come. -/
def flowKey (start : Mark) (first : Bool) : Produce Event := do
  let token ← peek
  match token.kind, first with
  | .flowMappingEnd, _ | _, true => flowKeyOrEnd start
  | .flowEntry, false =>
    discard take
    flowKeyOrEnd start
  | _, false => fail (some ⟨.flowMapping, start⟩) token.start .missingMappingComma

/-- Goes on in a flow mapping, where a value may come. -/
def flowValue (start : Mark) (missing : Bool) : Produce Event := do
  let token ← peek
  expect (.flowKey start false)
  match token.kind, missing with
  | .value, false =>
    discard take
    nodeUnless false false endsFlowValue (← peek).start
  | _, _ => return emptyNode token.start

/-- Reads the node of a document. -/
def documentNode (empty : Bool) : Produce Event := do
  let token ← peek
  if empty && endsDocument token.kind then return emptyNode token.start
  else node true false

/-- Reads the event that an expectation is about. -/
def event : Expectation → Produce Event
  | .document empty => documentNode empty
  | .blockItem start => blockItem start
  | .levelItem => levelItem
  | .blockKey start => blockKey start
  | .blockValue start => blockValue start
  | .flowItem start first => flowItem start first
  | .pairKey start => pairKey start
  | .pairValue start => pairValue start
  | .pairEnd start => pairEnd start
  | .flowKey start first => flowKey start first
  | .flowValue start missing => flowValue start missing

/-- Reads the next event of a document, or nothing if the document is complete. -/
def next? : Produce (Option Event) := do
  match (← get).expected with
  | [] => return none
  | expectation :: expected =>
    modify fun state => { state with expected := expected }
    return some (← event expectation)

/-! ## Documents -/

/-- The handles that every document may use. -/
def defaultHandles : List (String × String) :=
  [("!", "!"), ("!!", "tag:yaml.org,2002:")]

/-- Reads directives. `version` says whether there was a version already. -/
def directives : Nat → Bool → Produce Unit
  | 0, _ => return
  | rounds + 1, version => do
    let token ← peek
    match token.kind with
    | .version major minor =>
      if version then
        fail none token.start .duplicateVersion
      if major != 1 || (minor != 1 && minor != 2) then
        fail none token.start .incompatibleVersion
      discard take
      directives rounds true
    | .tagDirective handle address =>
      let handles := (← get).handles
      if (handles.lookup handle).isSome then
        fail none token.start .duplicateTagDirective
      modify fun state => { state with handles := handles ++ [(handle, address)] }
      discard take
      directives rounds version
    | _ => return

/-- Reads the start of the first document. Tells whether there is one. -/
def documentStart (rounds : Nat) : Produce Bool := do
  discard take
  let token ← peek
  match token.kind with
  | .streamEnd => return false
  | .version .. | .tagDirective .. | .documentStart =>
    directives rounds false
    let token ← peek
    unless token.kind == .documentStart do
      fail none token.start .missingDocumentStart
    discard take
    modify fun state => { state with handles := state.handles ++ defaultHandles }
    expect (.document true)
    return true
  | _ =>
    modify fun state => { state with handles := defaultHandles }
    expect (.document false)
    return true

/-- Reads the end of a document. -/
def documentEnd : Produce Unit := do
  if (← peek).kind == .documentEnd then
    discard take

/-- Whether anything follows a document but markers of its end. -/
def isFollowed : Nat → Produce Bool
  | 0 => return true
  | rounds + 1 => do
    match (← peek).kind with
    | .documentEnd =>
      discard take
      isFollowed rounds
    | .streamEnd => return false
    | _ => return true

end Produce

end SampleMethods.Yaml
