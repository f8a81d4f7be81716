import SampleMethods.Path

/-!
# Script dialects

The four dialects in which a sample may be written, the file extensions that
name them, and the two questions that the grammar asks about a dialect: whether
it has type annotations and whether it has markup elements.
-/

set_option autoImplicit false

namespace SampleMethods.Script

/-- A dialect of the script language. -/
inductive Dialect where
  /-- Plain scripts (`.js`, `.mjs`, `.cjs`). -/
  | javaScript
  /-- Scripts with markup elements (`.jsx`, `.mjsx`, `.cjsx`). -/
  | javaScriptMarkup
  /-- Scripts with type annotations (`.ts`, `.mts`, `.cts`). -/
  | typeScript
  /-- Scripts with type annotations and markup elements (`.tsx`, `.mtsx`, `.ctsx`). -/
  | typeScriptMarkup
deriving DecidableEq, Repr

namespace Dialect

/-- Every dialect, once. -/
def all : List Dialect :=
  [javaScript, javaScriptMarkup, typeScript, typeScriptMarkup]

/-- The name of a dialect in messages. -/
def name : Dialect → String
  | javaScript => "javascript"
  | javaScriptMarkup => "jsx"
  | typeScript => "typescript"
  | typeScriptMarkup => "tsx"

/-- The file extensions of a dialect, without the dot. -/
def extensions : Dialect → List String
  | javaScript => ["js", "mjs", "cjs"]
  | javaScriptMarkup => ["jsx", "mjsx", "cjsx"]
  | typeScript => ["ts", "mts", "cts"]
  | typeScriptMarkup => ["tsx", "mtsx", "ctsx"]

/-- Whether the dialect has type annotations. -/
def hasTypes : Dialect → Bool
  | typeScript | typeScriptMarkup => true
  | javaScript | javaScriptMarkup => false

/-- Whether the dialect has markup elements. -/
def hasMarkup : Dialect → Bool
  | javaScriptMarkup | typeScriptMarkup => true
  | javaScript | typeScript => false

/-- Decorators are part of no dialect. -/
def hasDecorators : Dialect → Bool
  | _ => false

/-- The dialect that a file extension names. -/
def ofExtension? (extension : String) : Option Dialect :=
  all.find? fun dialect => dialect.extensions.contains extension

/-- The ending of declaration files, which hold no sample code. -/
def declarationEnding : List Char := ".d.ts".toList

/-- The dialect of the file at a path, by its extension. Declaration files have none, and neither
have files whose name is no text. -/
def ofPath? (path : Path) : Option Dialect := do
  let name ← Text.decode? (← path.fileName?)
  if declarationEnding.isSuffixOf name then
    none
  else
    ofExtension? (String.ofList (← Text.decode? (← path.extension?)))

end Dialect

end SampleMethods.Script
