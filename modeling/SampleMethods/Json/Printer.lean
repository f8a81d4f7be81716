import SampleMethods.Json.Basic
import SampleMethods.Text.Debug

/-!
# Writing JSON text

A value is written on one line without blanks, or over many lines with two
blanks for each level. Empty lists and objects stay on one line in both forms.
The text of a value names each character that JSON refuses in a string by an
escape, and no other character.
-/

set_option autoImplicit false

namespace SampleMethods.Json

/-- A character inside a string. -/
def escape (character : Char) : List Char :=
  match character with
  | '"' => ['\\', '"']
  | '\\' => ['\\', '\\']
  | '\x08' => ['\\', 'b']
  | '\x0c' => ['\\', 'f']
  | '\n' => ['\\', 'n']
  | '\r' => ['\\', 'r']
  | '\t' => ['\\', 't']
  | _ =>
    if character.toNat < 0x10 then "\\u000".toList ++ Text.hexDigits character.toNat
    else if character.toNat < 0x20 then "\\u00".toList ++ Text.hexDigits character.toNat
    else [character]

/-- A string with its quotes. -/
def quoted (text : String) : String :=
  "\"" ++ String.ofList (text.toList.flatMap escape) ++ "\""

/-- A number. -/
def Number.render : Number → String
  | natural value => toString value
  | negative size => "-" ++ toString size
  | fraction value => value.render "+"

/-- A value that is no list and no object. -/
def scalar : Json → String
  | .null => "null"
  | .bool true => "true"
  | .bool false => "false"
  | .number value => value.render
  | .string text => quoted text
  | .array _ | .object _ => ""

mutual

/-- A value on one line. -/
def compact : Json → String
  | .array items => "[" ++ ",".intercalate (compactItems items) ++ "]"
  | .object members => "\x7b" ++ ",".intercalate (compactMembers members) ++ "\x7d"
  | value => scalar value

/-- Each element on one line. -/
def compactItems : List Json → List String
  | [] => []
  | item :: items => compact item :: compactItems items

/-- Each member on one line. -/
def compactMembers : List (String × Json) → List String
  | [] => []
  | (name, value) :: members => (quoted name ++ ":" ++ compact value) :: compactMembers members

end

/-- A line end and the blanks of a level. -/
def newLine (level : Nat) : String :=
  "\n" ++ String.ofList (List.replicate (2 * level) ' ')

/-- What stands between two brackets, each part on a line of its own. -/
def laidOut (level : Nat) (opening closing : String) (parts : List String) : String :=
  if parts.isEmpty then opening ++ closing
  else
    opening ++ newLine (level + 1) ++ ("," ++ newLine (level + 1)).intercalate parts ++
      newLine level ++ closing

mutual

/-- A value over many lines, the first of which has been begun on a level. -/
def prettyAt (level : Nat) : Json → String
  | .array items => laidOut level "[" "]" (prettyItems (level + 1) items)
  | .object members => laidOut level "\x7b" "\x7d" (prettyMembers (level + 1) members)
  | value => scalar value

/-- Each element over many lines. -/
def prettyItems (level : Nat) : List Json → List String
  | [] => []
  | item :: items => prettyAt level item :: prettyItems level items

/-- Each member over many lines. -/
def prettyMembers (level : Nat) : List (String × Json) → List String
  | [] => []
  | (name, value) :: members =>
    (quoted name ++ ": " ++ prettyAt level value) :: prettyMembers level members

end

/-- A value over many lines. -/
def pretty (value : Json) : String :=
  prettyAt 0 value

end SampleMethods.Json
