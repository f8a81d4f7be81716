import SampleMethods.Script.Grammar.Basic

/-!
# Templates

The text of a template is no row of tokens, so its pieces are read from the
text behind the cursor. Between two pieces stands a substitution, which is read
by the grammar again.
-/

set_option autoImplicit false

namespace SampleMethods.Script.Parser

/-- Reads a piece of a template from the text. A template with a tag may hold malformed
escapes. -/
def templatePiece (tagged : Bool) (text : List Char) (position : Nat) : Parser TemplatePiece :=
  match readTemplatePiece 0 none text position [] with
  | .error error => throw error
  | .ok piece =>
    match tagged, piece.fault with
    | false, some error => throw error
    | _, _ => return piece

/-- Reads a template whose opening backquote is the next token: its pieces of text and
what its substitutions hold. `hole` reads what stands in a substitution. -/
def template (tagged : Bool) (hole : Parser Node) : Parser (List String × List Node) := do
  let cursor ← get
  let first ← templatePiece tagged cursor.rest cursor.stop
  let (last, pieces, holes) ← iterate
    (fun (state : TemplatePiece × List String × List Node) => do
      let (latest, pieces, holes) := state
      if latest.last then
        return (state, false)
      modify (Cursor.next latest.rest latest.position false)
      let node ← hole
      unless ← isAt .rightBrace do
        expect .rightBrace
      let cursor ← get
      let next ← templatePiece tagged cursor.rest cursor.stop
      return ((next, next.raw :: pieces, node :: holes), true))
    (first, [first.raw], [])
  modify fun cursor =>
    Cursor.next last.rest last.position false { cursor with lastStop := last.position }
  return (pieces.reverse, holes.reverse)

end SampleMethods.Script.Parser
