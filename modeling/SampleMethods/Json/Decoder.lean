import SampleMethods.Json.Skip

/-!
# Decoding JSON

A decoder turns documents of a wanted form into values of a type. It works on
text, where errors have places, and on values, where they have none. The two
differ in what they notice first: a text is refused at its first fault, and a
value has its members in the order of their names.

A record may be written as an object or as the list of its fields.
-/

set_option autoImplicit false

namespace SampleMethods.Json

/-- A way to get values of a type out of documents. -/
structure Decoder (α : Type) where
  /-- Reads a value of the form from text. -/
  reader : Reader α
  /-- The value of the form that a document holds. -/
  ofJson : Json → Except Cause α

namespace Decoder

/-! ## Values of another form -/

/-- The error of a value that is not of the wanted form. -/
def refusal (wanted : String) (value : Json) : Cause :=
  .wrongType (.ofJson value) wanted

/-- Reads the next value far enough to tell what it is, and refuses it. -/
def refuse {α : Type} (wanted : String) : Reader α :=
  Reader.placed do
    let found ←
      match ← Reader.peek with
      | some 'n' =>
        Reader.skip
        Reader.word "ull".toList
        pure Found.null
      | some 't' =>
        Reader.skip
        Reader.word "rue".toList
        pure (Found.bool true)
      | some 'f' =>
        Reader.skip
        Reader.word "alse".toList
        pure (Found.bool false)
      | some '"' => pure (Found.string (← Reader.string))
      | some '[' => pure Found.sequence
      | some '\x7b' => pure Found.map
      | some character =>
        if character == '-' || Reader.isDigit character then
          pure (Found.number (← Reader.number))
        else
          Reader.failAtNext .missingValue
      | none => Reader.failAtNext .missingValue
    Reader.failUnplaced (.wrongType found wanted)

/-- The first character of a value. A text has to go on with a value. -/
def valueStart : Reader Char := do
  match ← Reader.nextVisible with
  | none => Reader.failAtNext .endInValue
  | some character => return character

/-- A list of names as messages offer them. -/
def offer (names : List String) : String :=
  let quoted := names.map fun name => "\x60" ++ name ++ "\x60"
  match quoted with
  | [] => "nothing"
  | [name] => name
  | [first, second] => first ++ " or " ++ second
  | names => "one of " ++ ", ".intercalate names

/-! ## Simple forms -/

/-- Texts. -/
def string : Decoder String where
  reader := do
    if (← valueStart) == '"' then Reader.string else refuse "a string"
  ofJson
    | .string text => .ok text
    | value => .error (refusal "a string" value)

/-- Truth values. -/
def bool : Decoder Bool where
  reader := do
    match ← valueStart with
    | 't' =>
      Reader.skip
      Reader.word "rue".toList
      return true
    | 'f' =>
      Reader.skip
      Reader.word "alse".toList
      return false
    | _ => refuse "a boolean"
  ofJson
    | .bool value => .ok value
    | value => .error (refusal "a boolean" value)

/-- The whole number below a bound that a number is. -/
def boundedOf (bound : Nat) (wanted : String) (number : Number) : Except Cause Nat :=
  match number with
  | .natural value =>
    if value < bound then .ok value else .error (.wrongValue (.number number) wanted)
  | .negative _ => .error (.wrongValue (.number number) wanted)
  | .fraction _ => .error (.wrongType (.number number) wanted)

/-- Whole numbers below a bound. -/
def bounded (bound : Nat) (wanted : String) : Decoder Nat where
  reader := do
    let first ← valueStart
    if first == '-' || Reader.isDigit first then
      Reader.placed do
        match boundedOf bound wanted (← Reader.number) with
        | .ok value => return value
        | .error cause => Reader.failUnplaced cause
    else
      refuse wanted
  ofJson
    | .number given => boundedOf bound wanted given
    | value => .error (refusal wanted value)

/-- Values that may be given as `null`. -/
def optional {α : Type} (decoder : Decoder α) : Decoder (Option α) where
  reader := do
    if (← Reader.nextVisible) == some 'n' then
      Reader.skip
      Reader.word "ull".toList
      return none
    else
      return some (← decoder.reader)
  ofJson
    | .null => .ok none
    | value => (decoder.ofJson value).map some

/-- Lists of values. -/
def list {α : Type} (decoder : Decoder α) : Decoder (List α) where
  reader := do
    if (← valueStart) == '[' then
      Reader.enclosed (Reader.elements decoder.reader) Reader.listEnd
    else
      refuse "a sequence"
  ofJson
    | .array items => items.mapM decoder.ofJson
    | value => .error (refusal "a sequence" value)

/-- The result with another type. -/
def map {α β : Type} (f : α → β) (decoder : Decoder α) : Decoder β where
  reader := return f (← decoder.reader)
  ofJson value := (decoder.ofJson value).map f

/-! ## Named values -/

/-- The value with a name. -/
def chosen {α : Type} (choices : List (String × α)) (name : String) : Except Cause α :=
  match choices.lookup name with
  | some value => .ok value
  | none => .error (.unknownVariant name (offer (choices.map (·.1))))

/-- Reads the name of one of the values. -/
def chosenReader {α : Type} (choices : List (String × α)) : Reader α := do
  if (← valueStart) == '"' then
    Reader.placed do
      match chosen choices (← Reader.string) with
      | .ok value => return value
      | .error cause => Reader.failUnplaced cause
  else
    refuse "variant identifier"

/-- The member that goes with a value that is given as an object: it has no content. -/
def nothing : Decoder Unit where
  reader := do
    if (← valueStart) == 'n' then
      Reader.skip
      Reader.word "ull".toList
    else
      refuse "unit"
  ofJson
    | .null => .ok ()
    | value => .error (refusal "unit" value)

/-- Values that are given by their names. The object `{"name":null}` counts as the name. -/
def choice {α : Type} (choices : List (String × α)) : Decoder α where
  reader := do
    match ← valueStart with
    | '"' => chosenReader choices
    | '\x7b' =>
      let value ← Reader.deeper do
        Reader.skip
        let value ← chosenReader choices
        Reader.colon
        nothing.reader
        return value
      match ← Reader.nextVisible with
      | none => Reader.fail .endInObject
      | some '\x7d' =>
        Reader.skip
        return value
      | some _ => Reader.fail .missingValue
    | _ => Reader.failAtNext .missingValue
  ofJson
    | .string name => chosen choices name
    | .object [(name, content)] => do
      let value ← chosen choices name
      nothing.ofJson content
      return value
    | .object _ => .error (.wrongValue .map "map with a single key")
    | value => .error (refusal "string or map" value)

/-! ## Records -/

/-- A field of a record of a type. -/
structure Field (α : Type) where
  name : String
  /-- Whether an object has to give the field. -/
  required : Bool
  /-- Changes a record as the value of the field says. -/
  decoder : Decoder (α → α)

/-- The field whose value a function puts into the record. -/
def field {α β : Type} (name : String) (required : Bool) (decoder : Decoder β)
    (put : β → α → α) : Field α :=
  ⟨name, required, decoder.map put⟩

/-- The records of a type. -/
structure Shape (α : Type) where
  /-- How messages name such a record. -/
  wanted : String
  /-- The record whose fields are all left out. -/
  blank : α
  fields : List (Field α)
  /-- Whether members that are no fields are refused. They are left alone if not. -/
  closed : Bool

namespace Shape

variable {α : Type} (shape : Shape α)

/-- The error of a list that ends before the field at a place. -/
def lengthCause (place : Nat) : Cause :=
  .wrongLength place
    (shape.wanted ++ " with " ++ toString shape.fields.length ++ " elements")

/-- The error of a member that is no field. -/
def unknownCause (name : String) : Cause :=
  .unknownField name (offer (shape.fields.map (·.name)))

/-- The field with a name. -/
def field? (name : String) : Option (Field α) :=
  shape.fields.find? (·.name == name)

/-- The record, if it lacks none of the required fields. -/
def complete (given : List String) (record : α) : Except Cause α :=
  match shape.fields.find? fun field => field.required && !given.contains field.name with
  | some field => .error (.missingField field.name)
  | none => .ok record

/-! ### From text -/

/-- Reads the fields of a record from the elements of a list. -/
def readElements : List (Field α) → Nat → α → Reader α
  | [], _, record => return record
  | field :: fields, place, record => do
    if ← Reader.hasElement (place == 0) then
      let change ← field.decoder.reader
      readElements fields (place + 1) (change record)
    else
      match (field :: fields).findIdx? (·.required) with
      | some later => Reader.failUnplaced (shape.lengthCause (place + later))
      | none => return record

/-- Reads the fields of a record from the members of an object. `rounds` bounds their
number. -/
def readMembers : Nat → List String → α → Reader α
  | 0, _, _ => Reader.fail .endInObject
  | rounds + 1, given, record => do
    if ← Reader.hasMember given.isEmpty then
      let name ← Reader.string
      match shape.field? name with
      | some field =>
        if given.contains name then
          Reader.failUnplaced (.duplicateField name)
        Reader.colon
        let change ← field.decoder.reader
        readMembers rounds (name :: given) (change record)
      | none =>
        if shape.closed then
          Reader.failUnplaced (shape.unknownCause name)
        Reader.colon
        Reader.skipValue
        readMembers rounds (name :: given) record
    else
      match shape.complete given record with
      | .ok record => return record
      | .error cause => Reader.failUnplaced cause

/-- Reads a record. -/
def reader : Reader α := do
  match ← valueStart with
  | '[' => Reader.enclosed (shape.readElements shape.fields 0 shape.blank) Reader.listEnd
  | '\x7b' =>
    Reader.enclosed (do shape.readMembers ((← get).rest.length + 1) [] shape.blank)
      Reader.objectEnd
  | _ => refuse shape.wanted

/-! ### From values -/

/-- The record whose fields are the elements of a list. `place` counts the elements before
them. -/
def ofItems : List (Field α) → Nat → List Json → α → Except Cause α
  | [], place, items, record =>
    if items.isEmpty then .ok record
    else .error (.wrongLength (place + items.length) "fewer elements in array")
  | fields@(_ :: _), place, [], record =>
    match fields.findIdx? (·.required) with
    | some later => .error (shape.lengthCause (place + later))
    | none => .ok record
  | field :: fields, place, item :: items, record => do
    let change ← field.decoder.ofJson item
    ofItems fields (place + 1) items (change record)

/-- The record whose fields are the members of an object. -/
def ofMembers : List (String × Json) → List String → α → Except Cause α
  | [], given, record => shape.complete given record
  | (name, value) :: members, given, record =>
    match shape.field? name with
    | some field => do
      let change ← field.decoder.ofJson value
      ofMembers members (name :: given) (change record)
    | none =>
      if shape.closed then .error (shape.unknownCause name)
      else ofMembers members (name :: given) record

/-- The record that a value writes. -/
def ofJson (value : Json) : Except Cause α :=
  match value with
  | .array items => shape.ofItems shape.fields 0 items shape.blank
  | .object members => shape.ofMembers members [] shape.blank
  | value => .error (refusal shape.wanted value)

end Shape

/-- Records of a shape. -/
def record {α : Type} (shape : Shape α) : Decoder α :=
  ⟨shape.reader, shape.ofJson⟩

/-! ## Whole documents -/

/-- The value that a text writes. -/
def ofText {α : Type} (decoder : Decoder α) (text : String) : Except Error α :=
  decoder.reader.run text

/-- The value that a document holds. Its errors have no place. -/
def ofValue {α : Type} (decoder : Decoder α) (value : Json) : Except Error α :=
  match decoder.ofJson value with
  | .ok result => .ok result
  | .error cause => .error ⟨cause, none⟩

end Decoder

end SampleMethods.Json
