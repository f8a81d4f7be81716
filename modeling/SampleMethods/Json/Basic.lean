import SampleMethods.Number.Double

/-!
# JSON values

The values of JSON documents. An object has at most one member of each name,
and its members are kept in the order of their names.
-/

set_option autoImplicit false

namespace SampleMethods

/-- A number of a JSON document. Whole numbers of 64 bits are exact. -/
inductive Json.Number where
  | natural (value : Nat)
  /-- A whole number below zero, by its size. -/
  | negative (size : Nat)
  | fraction (value : Double)
deriving DecidableEq, Repr

/-- A JSON value. -/
inductive Json where
  | null
  | bool (value : Bool)
  | number (value : Json.Number)
  | string (text : String)
  | array (items : List Json)
  | object (members : List (String × Json))
deriving Repr, Inhabited

namespace Json

/-- The members with one more, which takes the place of one with its name. -/
def insertMember (name : String) (value : Json) : List (String × Json) → List (String × Json)
  | [] => [(name, value)]
  | (other, kept) :: rest =>
    if name = other then (name, value) :: rest
    else if name < other then (name, value) :: (other, kept) :: rest
    else (other, kept) :: insertMember name value rest

/-- The object with the members. Of two members with one name, the later one counts. -/
def ofMembers (members : List (String × Json)) : Json :=
  .object (members.foldl (fun others member => insertMember member.1 member.2 others) [])

/-- The member of an object with a name. Other values have no members. -/
def member? (value : Json) (name : String) : Option Json :=
  match value with
  | .object members => members.lookup name
  | _ => none

end Json

end SampleMethods
