import SampleMethods.Proofs.Invocation.Declaration
import SampleMethods.Wrapper

/-!
# What is done with the wrapper

The wrapper of a module is its first item that declares a function with a body
(`first?_eq_some_iff`). Imports, exports and declarations without a body are no such
items, and what stands inside another statement is no item at all.

An extractor is called for the wrapper only, and once. To say so, every call is
written down by the extractor itself (`recorded`); apart from that the extractor may
change a world of its own and fail, and both are left as they are
(`delegates_firstDefined`).
-/

set_option autoImplicit false

namespace SampleMethods.Wrapper

open Script

variable {script : Module} {sourcePath : String} {wrapper : Wrapper}

/-! ## The first defined function -/

/-- The item declares a function with a body. -/
inductive Defines : Node → Wrapper → Prop where
  | declaration (name : String) (asynchronous generator : Bool) (outer span blockSpan : Span)
      (parameters : Node) (body : List Node) :
      Defines
        (.mk (.functionDeclaration name) outer
          [.mk (.function asynchronous generator) span [parameters, .mk .block blockSpan body]])
        ⟨name, .mk (.function asynchronous generator) span [parameters, .mk .block blockSpan body],
          body⟩

theorem ofStatement?_eq_some_iff {item : Node} :
    ofStatement? item = some wrapper ↔ Defines item wrapper := by
  constructor
  · intro found
    obtain ⟨⟨name, function, body⟩, defined, rfl⟩ := Option.map_eq_some_iff.mp found
    unfold Node.definedFunction? at defined
    split at defined
    · obtain ⟨_, isBody, same⟩ := Option.map_eq_some_iff.mp defined
      obtain ⟨_, _, _, _, _, rfl⟩ := Invocation.functionBody?_eq_some.mp isBody
      cases same
      exact .declaration _ _ _ _ _ _ _ _
    · cases defined
  · rintro ⟨⟩
    rfl

theorem ofStatement?_eq_none_iff {item : Node} :
    ofStatement? item = none ↔ ∀ wrapper, ¬Defines item wrapper := by
  simp only [Option.eq_none_iff_forall_not_mem, Option.mem_def, ofStatement?_eq_some_iff]

/-- Imports and exports define nothing. -/
theorem isStatement_of_defines {item : Node} (defines : Defines item wrapper) :
    Module.isStatement item = true := by
  cases defines
  rfl

/-- What the statements of a module define, its items define. -/
theorem first?_eq_findSome? (script : Module) :
    first? script = script.items.findSome? ofStatement? := by
  rw [first?, Module.statements]
  induction script.items with
  | nil => rfl
  | cons item items ih =>
      rw [List.findSome?_cons]
      cases isStatement : Module.isStatement item with
      | true => rw [List.filter_cons_of_pos isStatement, List.findSome?_cons, ih]
      | false =>
          have definesNothing : ofStatement? item = none := by
            refine ofStatement?_eq_none_iff.mpr fun wrapper defines => ?_
            rw [isStatement_of_defines defines] at isStatement
            cases isStatement
          rw [List.filter_cons_of_neg (by simp [isStatement]), definesNothing, ih]

/-- The module defines the function before any other one at its top. -/
def FirstDefines (script : Module) (wrapper : Wrapper) : Prop :=
  ∃ before item after, script.items = before ++ item :: after ∧ Defines item wrapper ∧
    ∀ earlier ∈ before, ∀ other, ¬Defines earlier other

/-- No item of the module is a function with a body. -/
def DefinesNone (script : Module) : Prop :=
  ∀ item ∈ script.items, ∀ wrapper, ¬Defines item wrapper

/-- **The wrapper is the first defined function.** -/
theorem first?_eq_some_iff : first? script = some wrapper ↔ FirstDefines script wrapper := by
  rw [first?_eq_findSome?, List.findSome?_eq_some_iff, FirstDefines]
  simp only [ofStatement?_eq_some_iff, ofStatement?_eq_none_iff]

theorem first?_eq_none_iff : first? script = none ↔ DefinesNone script := by
  rw [first?_eq_findSome?, List.findSome?_eq_none_iff, DefinesNone]
  simp only [ofStatement?_eq_none_iff]

theorem FirstDefines.unique {other : Wrapper} (one : FirstDefines script wrapper)
    (again : FirstDefines script other) : wrapper = other := by
  have found := first?_eq_some_iff.mpr one
  rw [first?_eq_some_iff.mpr again] at found
  exact (Option.some.inj found).symm

/-- A module that defines a function defines one before any other. -/
theorem exists_firstDefines (definesSome : ¬DefinesNone script) :
    ∃ wrapper, FirstDefines script wrapper := by
  cases found : first? script with
  | none => exact absurd (first?_eq_none_iff.mp found) definesSome
  | some wrapper => exact ⟨wrapper, first?_eq_some_iff.mp found⟩

/-! ## Calls of the extractor -/

/-- A call of an extractor: the statements and the path that it is called with. -/
abbrev Call := List Node × String

section Calls

variable {World Failure Result : Type}

/-- How an extractor ends, with the calls that have been made until then. -/
def withCalls (calls : List Call) :
    EStateM.Result Failure World Result → EStateM.Result Failure (List Call × World) Result
  | .ok result after => .ok result (calls, after)
  | .error failure after => .error failure (calls, after)

/-- An extractor that writes down each of its calls. -/
def recorded (extract : List Node → String → EStateM Failure World (List Result)) :
    List Node → String → EStateM Failure (List Call × World) (List Result) :=
  fun body path (calls, world) => withCalls (calls ++ [(body, path)]) (extract body path world)

end Calls

section Delegation

variable {m : Type → Type} [Monad m] {Result : Type}

theorem delegateM_of_definesNone (none : DefinesNone script)
    (extract : List Node → String → m (List Result)) :
    delegateM script sourcePath extract = pure [] := by
  rw [delegateM, first?_eq_none_iff.mpr none]

/-- The wrapper alone decides what is done with the module. -/
theorem FirstDefines.delegateM_eq (first : FirstDefines script wrapper)
    (extract : List Node → String → m (List Result)) :
    delegateM script sourcePath extract = extract wrapper.body sourcePath := by
  rw [delegateM, first?_eq_some_iff.mpr first]

end Delegation

theorem extract_of_definesNone (none : DefinesNone script) (text : List Char) :
    extract text sourcePath script = [] := by
  simp only [extract, delegate, delegateM_of_definesNone none]
  rfl

theorem FirstDefines.extract_eq (first : FirstDefines script wrapper) (text : List Char) :
    extract text sourcePath script = Invocation.extract text sourcePath wrapper.body := by
  simp only [extract, delegate, first.delegateM_eq]

/-- **The body of the first defined function is handed on, once, and nothing else is.** Where no
function is defined the extractor is not called. Where one is, the extractor is called with the
statements of the body of the first one and with the path, and its result or failure and the world
that it leaves behind are given back. So the methods of a module are those of this body, and all
modules with this body in their first defined function are treated alike. -/
theorem delegates_firstDefined (script : Module) (sourcePath : String) :
    (DefinesNone script →
      (∀ (World Failure Result : Type)
        (extract : List Node → String → EStateM Failure World (List Result))
        (calls : List Call) (world : World),
        delegateM script sourcePath (recorded extract) (calls, world) = .ok [] (calls, world)) ∧
      ∀ text, extract text sourcePath script = []) ∧
    (¬DefinesNone script → ∃! wrapper, FirstDefines script wrapper) ∧
    ∀ wrapper, FirstDefines script wrapper →
      (∀ (World Failure Result : Type)
        (extract : List Node → String → EStateM Failure World (List Result))
        (calls : List Call) (world : World),
        delegateM script sourcePath (recorded extract) (calls, world) =
          withCalls (calls ++ [(wrapper.body, sourcePath)])
            (extract wrapper.body sourcePath world)) ∧
      (∀ text, extract text sourcePath script =
        Invocation.extract text sourcePath wrapper.body) ∧
      ∀ other otherWrapper, FirstDefines other otherWrapper → otherWrapper.body = wrapper.body →
        (∀ (m : Type → Type) [Monad m] (Result : Type)
          (extract : List Node → String → m (List Result)),
          delegateM other sourcePath extract = delegateM script sourcePath extract) ∧
        ∀ text, extract text sourcePath other = extract text sourcePath script := by
  refine ⟨fun none => ⟨?_, extract_of_definesNone none⟩, fun definesSome => ?_,
    fun wrapper first => ⟨?_, first.extract_eq, fun other otherWrapper otherFirst sameBody => ?_⟩⟩
  · intro World Failure Result extract calls world
    rw [delegateM_of_definesNone none]
    rfl
  · obtain ⟨wrapper, first⟩ := exists_firstDefines definesSome
    exact ⟨wrapper, first, fun other again => again.unique first⟩
  · intro World Failure Result extract calls world
    rw [first.delegateM_eq]
    rfl
  · constructor
    · intro m _ Result extract
      rw [otherFirst.delegateM_eq, first.delegateM_eq, sameBody]
    · intro text
      rw [otherFirst.extract_eq, first.extract_eq, sameBody]

/-! ## A wrapper behind other functions -/

section Sample

/-- A span that does not matter. -/
private abbrev somewhere : Span := ⟨0, 0⟩

/-- A function with a body, if it has one. -/
private def functionNode (body : Option (List Node)) : Node :=
  .mk (.function false false) somewhere
    (.mk .parameters somewhere [] :: (body.map fun body => .mk .block somewhere body).toList)

/-- The declaration of a function. -/
private def functionNamed (name : String) (body : Option (List Node)) : Node :=
  .mk (.functionDeclaration name) somewhere [functionNode body]

/-- The statement that calls a function. -/
private def callOf (name : String) : Node :=
  .mk .expressionStatement somewhere
    [.mk .call somewhere [.mk (.reference name) somewhere []]]

/-- The body of the wrapper declares a function and calls it. -/
def wrappedBody : List Node :=
  [functionNamed "list" (some []), callOf "list"]

/-- A module with an import, an export of a function, a function in a block, a function as a value
and a declaration without a body in front of its first defined function, and another one behind
it. -/
def crowdedModule : Module where
  items :=
    [.mk (.importDeclaration "fs") somewhere [],
     .mk (.exportDeclaration "") somewhere [functionNamed "exported" (some [])],
     .mk .block somewhere [functionNamed "inner" (some [])],
     .mk (.variableDeclaration "const") somewhere
       [.mk .declarator somewhere
         [.mk (.binding "value") somewhere [], functionNode (some [])]],
     functionNamed "main" none,
     functionNamed "main" (some wrappedBody),
     functionNamed "later" (some [])]

/-- A module with nothing but a function. -/
def plainModule : Module where
  items := [functionNamed "run" (some wrappedBody)]

/-- A module with a class and a declaration without a body. -/
def emptyHandedModule : Module where
  items := [.mk (.classDeclaration "Sample") somewhere [], functionNamed "setup" none]

/-- An extractor that counts the statements that it has seen, and fails. -/
private def failing (body : List Node) (_ : String) : EStateM String Nat (List String) :=
  fun seen => .error "no luck" (seen + body.length)

/-- In the crowded module the failing extractor is called for the body of the wrapper, and in the
one without a defined function it is not called. -/
theorem delegates_firstDefined_crowded :
    FirstDefines crowdedModule ⟨"main", functionNode (some wrappedBody), wrappedBody⟩ ∧
      FirstDefines plainModule ⟨"run", functionNode (some wrappedBody), wrappedBody⟩ ∧
      DefinesNone emptyHandedModule ∧
      delegateM crowdedModule "/a.js" (recorded failing) ([], 0) =
        .error "no luck" ([(wrappedBody, "/a.js")], 2) ∧
      extract [] "/a.js" crowdedModule = Invocation.extract [] "/a.js" wrappedBody ∧
      extract [] "/a.js" plainModule = extract [] "/a.js" crowdedModule ∧
      delegateM emptyHandedModule "/b.js" (recorded failing) ([], 0) = .ok [] ([], 0) := by
  have first : FirstDefines crowdedModule
      ⟨"main", functionNode (some wrappedBody), wrappedBody⟩ := first?_eq_some_iff.mp rfl
  have plain : FirstDefines plainModule
      ⟨"run", functionNode (some wrappedBody), wrappedBody⟩ := first?_eq_some_iff.mp rfl
  have none : DefinesNone emptyHandedModule := first?_eq_none_iff.mp rfl
  obtain ⟨_, _, ofFirst⟩ := delegates_firstDefined crowdedModule "/a.js"
  obtain ⟨ofNone, _, _⟩ := delegates_firstDefined emptyHandedModule "/b.js"
  obtain ⟨called, extracted, alike⟩ := ofFirst _ first
  exact ⟨first, plain, none, called Nat String String failing [] 0, extracted [],
    (alike plainModule _ plain rfl).2 [], (ofNone none).1 Nat String String failing [] 0⟩

end Sample

end SampleMethods.Wrapper
