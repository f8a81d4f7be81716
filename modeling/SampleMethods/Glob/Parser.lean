import SampleMethods.Glob.Basic

/-!
# Reading patterns

A pattern is read one character at a time. A group in braces opens a level, on
which its branches are gathered until the group closes; the lowest level is
that of the pattern itself.
-/

set_option autoImplicit false

namespace SampleMethods.Glob

/-! ## Levels -/

/-- An open group: its finished branches and the one that is being read, the latest token
first. -/
structure Level where
  branches : List (List Token)
  current : List Token
deriving Repr, Inhabited

/-- The open groups, the innermost one first, and the level of the pattern below them. -/
structure Levels where
  groups : List Level
  bottom : List Token
deriving Repr, Inhabited

namespace Levels

/-- The tokens of the branch that is being read, the latest one first. -/
def current (levels : Levels) : List Token :=
  match levels.groups with
  | group :: _ => group.current
  | [] => levels.bottom

/-- The levels with other tokens in the branch that is being read. -/
def withCurrent (levels : Levels) (tokens : List Token) : Levels :=
  match levels.groups with
  | group :: groups => { levels with groups := { group with current := tokens } :: groups }
  | [] => { levels with bottom := tokens }

/-- Puts a token behind those that have been read. -/
def push (levels : Levels) (token : Token) : Levels :=
  levels.withCurrent (token :: levels.current)

/-- Whether a group is open. -/
def inGroup (levels : Levels) : Bool :=
  !levels.groups.isEmpty

/-- Opens a group. -/
def openGroup (levels : Levels) : Levels :=
  { levels with groups := ⟨[], []⟩ :: levels.groups }

/-- Begins another branch. Outside of groups a comma is a character like others. -/
def comma (levels : Levels) : Levels :=
  match levels.groups with
  | group :: groups =>
    { levels with groups := ⟨group.branches ++ [group.current.reverse], []⟩ :: groups }
  | [] => levels.push (.literal ',')

/-- Closes the innermost group. -/
def closeGroup (levels : Levels) : Except Cause Levels :=
  match levels.groups with
  | group :: groups =>
    .ok (Levels.push { levels with groups := groups }
      (.alternatives (group.branches ++ [group.current.reverse])))
  | [] => .error .unopenedAlternatives

end Levels

/-! ## Stars -/

/-- Takes in a star, given the character before it and the text behind it. Gives the number
of further characters that it takes. -/
def star (previous : Option Char) (rest : List Char) (levels : Levels) : Levels × Nat :=
  let plain := ((levels.push .many).push .many, 1)
  match rest with
  | '*' :: rest =>
    if levels.current.isEmpty then
      match rest.head? with
      | none => (levels.push .leadingSteps, 1)
      | some '/' => (levels.push .leadingSteps, 2)
      | some _ => plain
    else if previous != some '/' &&
        !(levels.inGroup && (previous == some ',' || previous == some '\x7b')) then
      plain
    else
      match rest.head? with
      | none => (steps .trailingSteps, 1)
      | some '/' => (steps .innerSteps, 2)
      | some next =>
        if levels.inGroup && (next == ',' || next == '\x7d') then (steps .trailingSteps, 1)
        else plain
  | _ => (levels.push .many, 0)
where
  /-- The levels with the last token made to stand for steps. -/
  steps (token : Token) : Levels :=
    match levels.current with
    | .leadingSteps :: _ => levels
    | .trailingSteps :: _ => levels
    | _ :: tokens => levels.withCurrent (token :: tokens)
    | [] => levels.push token

/-! ## Classes -/

/-- What has been read of a class. `inRange` says that a hyphen has been read that may join
two characters. -/
structure ClassScan where
  negated : Bool
  ranges : List (Char × Char)
  inRange : Bool
deriving Repr, Inhabited

namespace ClassScan

/-- Whether nothing has been read. A bracket stands for itself there. -/
def isEmpty (scan : ClassScan) : Bool :=
  scan.ranges.isEmpty

/-- The class with one more character, which may end a range. -/
def add (scan : ClassScan) (character : Char) : Except Cause ClassScan :=
  match scan.inRange, scan.ranges with
  | true, (first, _) :: ranges =>
    if character < first then .error (.emptyRange first character)
    else .ok { scan with ranges := (first, character) :: ranges, inRange := false }
  | _, ranges => .ok { scan with ranges := (character, character) :: ranges, inRange := false }

/-- The class with a hyphen. It joins two characters unless it is the first of them. -/
def hyphen (scan : ClassScan) : Except Cause ClassScan :=
  if scan.isEmpty || scan.inRange then scan.add '-'
  else .ok { scan with inRange := true }

/-- The token of a finished class. A hyphen at the end stands for itself. -/
def token (scan : ClassScan) : Token :=
  let ranges := if scan.inRange then ('-', '-') :: scan.ranges else scan.ranges
  .oneOf scan.negated ranges.reverse

end ClassScan

/-! ## Whole patterns -/

/-- What the next character belongs to. -/
inductive Mode where
  | plain
  /-- Some characters have been taken in already. -/
  | passing (count : Nat)
  | escaped
  /-- The mark of a negated class may come next. -/
  | classStart
  | inClass (scan : ClassScan)
deriving Repr, Inhabited

/-- Reads a pattern from behind a character. -/
def read : Mode → Option Char → Levels → List Char → Except Cause (List Token)
  | mode, _, levels, [] =>
    match mode with
    | .escaped => .error .danglingEscape
    | .classStart | .inClass _ => .error .unclosedClass
    | .plain | .passing _ =>
      if levels.inGroup then .error .unclosedAlternatives else .ok levels.bottom.reverse
  | .passing (count + 2), _, levels, character :: rest =>
    read (.passing (count + 1)) (some character) levels rest
  | .passing _, _, levels, character :: rest => read .plain (some character) levels rest
  | .escaped, _, levels, character :: rest =>
    read .plain (some character) (levels.push (.literal character)) rest
  | .classStart, _, levels, character :: rest => do
    if character == '!' || character == '^' then
      read (.inClass ⟨true, [], false⟩) (some character) levels rest
    else
      let scan : ClassScan := ⟨false, [], false⟩
      read (.inClass (← if character == '-' then scan.hyphen else scan.add character))
        (some character) levels rest
  | .inClass scan, _, levels, character :: rest => do
    if character == ']' && !scan.isEmpty then
      read .plain (some character) (levels.push scan.token) rest
    else
      read (.inClass (← if character == '-' then scan.hyphen else scan.add character))
        (some character) levels rest
  | .plain, previous, levels, character :: rest =>
    match character with
    | '?' => read .plain (some '?') (levels.push .any) rest
    | '*' =>
      let (levels, taken) := star previous rest levels
      read (if taken == 0 then .plain else .passing taken) (some '*') levels rest
    | '[' => read .classStart (some '[') levels rest
    | '\x7b' => read .plain (some '\x7b') levels.openGroup rest
    | '\x7d' => do read .plain (some '\x7d') (← levels.closeGroup) rest
    | ',' => read .plain (some ',') levels.comma rest
    | '\\' => read .escaped (some '\\') levels rest
    | _ => read .plain (some character) (levels.push (.literal character)) rest

/-- The pattern that a text writes. -/
def parse (text : String) : Except Error Glob :=
  match read .plain none ⟨[], []⟩ text.toList with
  | .ok tokens => .ok ⟨text, tokens⟩
  | .error cause => .error ⟨text, cause⟩

end SampleMethods.Glob
