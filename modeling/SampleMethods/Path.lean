import SampleMethods.Text.Bytes
import SampleMethods.Text.Split

/-!
# Paths

A path is a row of bytes whose steps are divided by slashes. It need not be
written by any text; where it is shown as one, what is no character is replaced,
so two paths may be shown alike.

Two paths that are written differently may have the same components: repeated
slashes, a slash at the end and a step `.` that is not the first one make no
difference. Paths are compared and ordered by their components.

Nothing here looks at files, so `..` is a component like a name.
-/

set_option autoImplicit false

namespace SampleMethods

open Text (Bytes slash point)

/-- A path, as it is written. -/
structure Path where
  text : Bytes
deriving DecidableEq, Repr, Inhabited

namespace Path

/-- The path that a text writes. -/
def ofString (text : String) : Path :=
  ⟨Text.bytes text⟩

/-- The text that a path is shown as. -/
def toString (path : Path) : String :=
  String.ofList (Text.decodeLossy path.text)

/-! ## Components -/

/-- A step of a path that makes a difference. -/
inductive Component where
  | root
  /-- The step `.` at the start of a path. -/
  | here
  /-- The step `..`. -/
  | up
  | name (text : Bytes)
deriving DecidableEq, Repr

/-- Whether the path starts at the root. -/
def isAbsolute (path : Path) : Bool :=
  path.text.head? == some slash

/-- What stands between the slashes of a path, and whether it makes a difference there. -/
structure Step where
  text : Bytes
  counts : Bool
deriving DecidableEq, Repr

/-- What stands between the slashes of a path, from behind the root on. -/
def steps (path : Path) : List Step :=
  let counts (text : Bytes) : Bool := !(text.isEmpty || text == [point])
  match Text.cutAt slash (if path.isAbsolute then path.text.tail else path.text) with
  | [] => []
  | first :: others =>
    ⟨first, counts first || (!path.isAbsolute && first == [point])⟩ ::
      others.map fun text => ⟨text, counts text⟩

/-- The component that a step is. -/
def Step.component (step : Step) : Component :=
  if step.text == [point] then .here
  else if step.text == [point, point] then .up
  else .name step.text

/-- The components of a path. -/
def components (path : Path) : List Component :=
  (if path.isAbsolute then [.root] else []) ++
    (path.steps.filter (·.counts)).map Step.component

/-- The path that is written with the steps. -/
def ofSteps (absolute : Bool) (steps : List Step) : Path :=
  ⟨(if absolute then [slash] else []) ++ Text.join [slash] (steps.map (·.text))⟩

/-- The steps without those at the end that make no difference. -/
def dropSilentEnd (steps : List Step) : List Step :=
  (steps.reverse.dropWhile (!·.counts)).reverse

/-! ## Names and extensions -/

/-- The name that the path ends with. -/
def fileName? (path : Path) : Option Bytes :=
  match path.components.getLast? with
  | some (.name text) => some text
  | _ => none

/-- A name cut at its last point. A point at the start of the name does not count. -/
def splitName (name : Bytes) : Bytes × Option Bytes :=
  let extension := (name.reverse.takeWhile (· != point)).reverse
  let stem := name.take (name.length - extension.length - 1)
  if name.contains point && !stem.isEmpty then (stem, some extension) else (name, none)

/-- The part of the last name behind its last point. -/
def extension? (path : Path) : Option Bytes :=
  path.fileName?.bind fun name => (splitName name).2

/-! ## Moving in the tree -/

/-- The path without its last component. A path without components and the root have
none. -/
def parent? (path : Path) : Option Path :=
  match path.components.getLast? with
  | none | some .root => none
  | some _ =>
    some (ofSteps path.isAbsolute (dropSilentEnd (dropSilentEnd path.steps).dropLast))

/-- The path that the second one names when it is taken from the first one. -/
def join (base path : Path) : Path :=
  if path.isAbsolute then path
  else if base.text.isEmpty || base.text.getLast? == some slash then ⟨base.text ++ path.text⟩
  else ⟨base.text ++ slash :: path.text⟩

/-- The path with one more name at its end. -/
def child (path : Path) (name : Bytes) : Path :=
  path.join ⟨name⟩

/-- The steps behind those that the components name, if they are named in front. -/
def dropComponents : List Component → List Step → Option (List Step)
  | [], steps => some steps
  | _ :: _, [] => none
  | component :: components, step :: steps =>
    if !step.counts then dropComponents (component :: components) steps
    else if step.component == component then dropComponents components steps
    else none

/-- The path from the base to the path, if the components of the base come first in it. -/
def stripPrefix? (path base : Path) : Option Path :=
  if base.isAbsolute != path.isAbsolute then
    if base.components.isEmpty then some (ofSteps path.isAbsolute (dropSilentEnd path.steps))
    else none
  else
    let remaining := dropComponents (base.components.filter (· != .root)) path.steps
    remaining.map fun steps =>
      if base.components.isEmpty then ofSteps path.isAbsolute (dropSilentEnd steps)
      else ofSteps false (dropSilentEnd (steps.dropWhile (!·.counts)))

/-- The path with another extension of the last name, or with one if it had none. -/
def withExtension (path : Path) (extension : Bytes) : Path :=
  match path.fileName? with
  | none => path
  | some name =>
    let steps := dropSilentEnd path.steps
    let stem := (splitName name).1
    ofSteps path.isAbsolute
      (steps.dropLast ++ [⟨stem ++ point :: extension, true⟩])

/-! ## Order -/

namespace Component

/-- The place of the kinds of components among one another. -/
def rank : Component → Nat
  | root => 0
  | here => 1
  | up => 2
  | name _ => 3

/-- Whether a component comes before another one. Names are ordered by their bytes. -/
def precedes : Component → Component → Bool
  | name first, name second => first < second
  | first, second => first.rank < second.rank

end Component

/-- Whether a row of components comes before another one. -/
def precedesIn : List Component → List Component → Bool
  | _, [] => false
  | [], _ :: _ => true
  | first :: firsts, second :: seconds =>
    if first == second then precedesIn firsts seconds else first.precedes second

/-- Whether a path comes before another one, or has the same components. -/
def isAtMost (first second : Path) : Bool :=
  !precedesIn second.components first.components

end Path

end SampleMethods
