import SampleMethods.Invocation
import SampleMethods.Proofs.Script.Parentheses

/-!
# Calls that run where they stand

The walk that looks for calls is held against a relation between nodes. From a
node it gets to itself and, unless the node is a construct whose parts run
elsewhere, to whatever it gets to from a part. A name is called in a list of
statements when the walk gets to a call of that name from one of them; the walk
collects exactly these names (`mem_calledNamesIn`).
-/

set_option autoImplicit false

namespace SampleMethods

open Script

namespace Invocation

/-- The constructs that hold what runs elsewhere: functions, arrows, classes, and the
accessors of objects. -/
inductive Encloses : Label → Prop where
  | function (asynchronous generator : Bool) : Encloses (.function asynchronous generator)
  | arrow (asynchronous : Bool) : Encloses (.arrow asynchronous)
  | classValue : Encloses .classValue
  | getter : Encloses .getter
  | setter : Encloses .setter

theorem isClosed_iff {label : Label} : isClosed label = true ↔ Encloses label := by
  constructor
  · intro closed
    unfold isClosed at closed
    split at closed
    · exact .function _ _
    · exact .arrow _
    · exact .classValue
    · exact .getter
    · exact .setter
    · cases closed
  · rintro (_ | _ | _ | _ | _) <;> rfl

/-- The second node stands somewhere in the first one, and none of the nodes around it there
encloses what runs elsewhere. -/
inductive Reaches : Node → Node → Prop where
  | here (node : Node) : Reaches node node
  | into {label : Label} {parts : List Node} {part target : Node} (span : Span) :
      ¬Encloses label → part ∈ parts → Reaches part target →
        Reaches (.mk label span parts) target

/-- The node is a call whose callee is the name, in any number of parentheses. -/
inductive Calls (name : String) : Node → Prop where
  | call {callee : Node} {nameSpan : Span} {nameParts : List Node} (span : Span)
      (arguments : List Node) :
      Node.Parenthesized (.mk (.reference name) nameSpan nameParts) callee →
        Calls name (.mk .call span (callee :: arguments))

/-- The name is called in the statements, outside of everything that runs elsewhere. -/
def Invokes (statements : List Node) (name : String) : Prop :=
  ∃ statement ∈ statements, ∃ call, Reaches statement call ∧ Calls name call

/-- A walk that leaves a node goes on from one of its parts. -/
theorem reaches_iff {label : Label} {span : Span} {parts : List Node} {target : Node} :
    Reaches (.mk label span parts) target ↔
      target = .mk label span parts ∨
        ¬Encloses label ∧ ∃ part ∈ parts, Reaches part target := by
  constructor
  · intro reaches
    cases reaches with
    | here => exact .inl rfl
    | into _ opened member further => exact .inr ⟨opened, _, member, further⟩
  · rintro (rfl | ⟨opened, part, member, further⟩)
    · exact .here _
    · exact .into span opened member further

theorem calledName?_eq_some {label : Label} (span : Span) {parts : List Node} {name : String} :
    calledName? label parts = some name ↔ Calls name (.mk label span parts) := by
  constructor
  · intro called
    unfold calledName? at called
    split at called
    · rename_i callee arguments
      split at called
      · rename_i called' isReference
        cases called
        obtain ⟨_, _, parenthesized⟩ := Node.withoutParentheses_label_eq_reference.mp isReference
        exact .call span arguments parenthesized
      · cases called
    · cases called
  · rintro ⟨_, arguments, parenthesized⟩
    have isReference := Node.withoutParentheses_label_eq_reference.mpr ⟨_, _, parenthesized⟩
    simp only [calledName?, isReference]

/-- A call does not enclose what runs elsewhere. -/
theorem Calls.not_encloses {label : Label} {span : Span} {parts : List Node} {name : String}
    (calls : Calls name (.mk label span parts)) : ¬Encloses label := by
  cases calls
  intro encloses
  cases encloses

mutual

/-- The walk collects from a node the names that are called where it gets to. -/
theorem mem_calledNames (name : String) : ∀ node : Node,
    name ∈ calledNames node ↔ ∃ call, Reaches node call ∧ Calls name call
  | .mk label span parts => by
      rw [calledNames]
      by_cases encloses : Encloses label
      · rw [if_pos (isClosed_iff.mpr encloses)]
        constructor
        · intro member
          cases member
        · rintro ⟨call, reaches, calls⟩
          rcases reaches_iff.mp reaches with rfl | ⟨opened, _⟩
          · exact absurd encloses calls.not_encloses
          · exact absurd encloses opened
      · rw [if_neg (mt isClosed_iff.mp encloses), List.mem_append, Option.mem_toList,
          calledName?_eq_some span, mem_calledNamesIn name parts]
        constructor
        · rintro (calls | ⟨part, member, call, reaches, calls⟩)
          · exact ⟨_, .here _, calls⟩
          · exact ⟨call, .into span encloses member reaches, calls⟩
        · rintro ⟨call, reaches, calls⟩
          rcases reaches_iff.mp reaches with rfl | ⟨_, part, member, further⟩
          · exact .inl calls
          · exact .inr ⟨part, member, call, further, calls⟩

theorem mem_calledNamesIn (name : String) : ∀ nodes : List Node,
    name ∈ calledNamesIn nodes ↔ ∃ node ∈ nodes, ∃ call, Reaches node call ∧ Calls name call
  | [] => by simp [calledNamesIn]
  | node :: nodes => by
      simp only [calledNamesIn, List.mem_append, mem_calledNames name node,
        mem_calledNamesIn name nodes, List.mem_cons, exists_eq_or_imp]

end

/-- **The names that the walk collects are those that the statements invoke.** -/
theorem invokes_iff {statements : List Node} {name : String} :
    Invokes statements name ↔ name ∈ calledNamesIn statements :=
  (mem_calledNamesIn name statements).symm

end Invocation

end SampleMethods
