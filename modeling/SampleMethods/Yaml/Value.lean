import SampleMethods.Number.Double

/-!
# YAML values

The values that YAML documents write. A mapping has at most one entry for each
key, in the order in which they are written, and keys may be any values. Two
mappings are alike when they have the same entries in any order.
-/

set_option autoImplicit false

namespace SampleMethods

/-- A number of a YAML document. Whole numbers of 64 bits are exact. -/
inductive Yaml.Number where
  | natural (value : Nat)
  /-- A whole number below zero, by its size. -/
  | negative (size : Nat)
  | fraction (value : Double)
  | infinite (negative : Bool)
  | notANumber
deriving DecidableEq, Repr

/-- A YAML value. -/
inductive Yaml where
  | null
  | bool (value : Bool)
  | number (value : Yaml.Number)
  | string (text : String)
  | sequence (items : List Yaml)
  | mapping (entries : List (Yaml × Yaml))
  /-- A value with a tag of the document's own. -/
  | tagged (tag : String) (value : Yaml)
deriving Repr, Inhabited

namespace Yaml

namespace Number

/-- Whether two numbers are alike. Zero has no sign there, and what is not a number is like
itself. -/
def isLike : Number → Number → Bool
  | fraction first, fraction second =>
    (first.significand == 0 && second.significand == 0) || first == second
  | first, second => first == second

/-- The number as messages write it by itself: without an exponent, and without a point when
it is whole. -/
def renderPlain : Number → String
  | natural value => toString value
  | negative size => "-" ++ toString size
  | fraction value => value.renderPlain
  | infinite below => if below then "-.inf" else ".inf"
  | notANumber => ".nan"

/-- The number as documents write it. -/
def render : Number → String
  | fraction value => value.render ""
  | other => other.renderPlain

end Number

/-- A tag without the exclamation mark in front of it. -/
def bareTag (tag : String) : String :=
  match tag.toList with
  | '!' :: character :: rest => String.ofList (character :: rest)
  | _ => tag

/-- The value without its tags. -/
def untagged : Yaml → Yaml
  | tagged _ value => value.untagged
  | value => value

/-- The text that a value is, with or without a tag. -/
def text? (value : Yaml) : Option String :=
  match value.untagged with
  | string text => some text
  | _ => none

mutual

/-- Whether two values are alike. -/
def isLike : Yaml → Yaml → Bool
  | null, null => true
  | bool first, bool second => first == second
  | number first, number second => first.isLike second
  | string first, string second => first == second
  | sequence first, sequence second => areLike first second
  | mapping first, mapping second =>
    first.length == second.length && haveLikes first second
  | tagged firstTag first, tagged secondTag second =>
    bareTag firstTag == bareTag secondTag && isLike first second
  | _, _ => false

/-- Whether two rows of values are alike, item by item. -/
def areLike : List Yaml → List Yaml → Bool
  | [], [] => true
  | first :: firsts, second :: seconds => isLike first second && areLike firsts seconds
  | _, _ => false

/-- Whether all entries of the first row have one like them in the second row. -/
def haveLikes : List (Yaml × Yaml) → List (Yaml × Yaml) → Bool
  | [], _ => true
  | (key, value) :: entries, others =>
    others.any (fun other => isLike key other.1 && isLike value other.2) && haveLikes entries others

end

/-- The value of an entry whose key is a text. -/
def entry? (entries : List (Yaml × Yaml)) (name : String) : Option Yaml :=
  match entries with
  | [] => none
  | (.string text, value) :: rest => if text = name then some value else entry? rest name
  | _ :: rest => entry? rest name

end Yaml

end SampleMethods
