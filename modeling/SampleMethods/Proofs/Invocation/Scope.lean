import SampleMethods.Proofs.Invocation.Skeleton

/-!
# Calls in the scope of a list of statements

The parts of a construct that are evaluated where the construct stands are its parts in
scope: no part of a function, of a class everything in front of its body, and of an
accessor of an object its key. A declared function that is called in the scope of the
statements is recorded, as long as no class and no accessor stands around the call
(`extract_iff_invokesInScope`). These two are left alone as a whole, so what a class
extends and the computed key of an accessor are in scope, but a call there is not seen
(`extract_heritage_and_accessorKey`).
-/

set_option autoImplicit false

namespace SampleMethods

open Script

namespace Invocation

/-! ## Scope -/

/-- The parts of a construct that are evaluated where the construct stands. -/
def partsInScope (label : Label) (parts : List Node) : List Node :=
  match label with
  | .function .. | .arrow _ => []
  | .classValue => parts.dropLast
  | .getter | .setter => parts.take 1
  | _ => parts

/-- Whether a construct has parts in scope beside a part that runs elsewhere. -/
def isHalfOpen (label : Label) : Bool :=
  match label with
  | .classValue | .getter | .setter => true
  | _ => false

/-- The second node is evaluated in the scope of the first one, which it stands in. The flag
tells whether a half-open construct is on the way. -/
inductive InScope : Bool → Node → Node → Prop where
  | here (node : Node) : InScope false node node
  | into {label : Label} {parts : List Node} {part target : Node} {aside : Bool} (span : Span) :
      part ∈ partsInScope label parts → InScope aside part target →
        InScope (aside || isHalfOpen label) (.mk label span parts) target

/-- The name is called in the scope of the statements; the flag is that of the call. -/
def InvokesInScope (aside : Bool) (statements : List Node) (name : String) : Prop :=
  ∃ statement ∈ statements, ∃ call, InScope aside statement call ∧ Calls name call

/-! ## Scope and the walk -/

theorem mem_partsInScope_iff {label : Label} (notHalfOpen : isHalfOpen label = false)
    {parts : List Node} {part : Node} :
    part ∈ partsInScope label parts ↔ ¬Encloses label ∧ part ∈ parts := by
  rw [partsInScope.eq_def]
  split
  · exact ⟨nofun, fun both => absurd (.function _ _) both.1⟩
  · exact ⟨nofun, fun both => absurd (.arrow _) both.1⟩
  · cases notHalfOpen
  · cases notHalfOpen
  · cases notHalfOpen
  · rename_i noFunction noArrow noClass noGetter noSetter
    refine (and_iff_right ?_).symm
    rintro (⟨asynchronous, generator⟩ | asynchronous | _ | _ | _)
    · exact noFunction asynchronous generator rfl
    · exact noArrow asynchronous rfl
    · exact noClass rfl
    · exact noGetter rfl
    · exact noSetter rfl

theorem isHalfOpen_of_not_encloses {label : Label} (opened : ¬Encloses label) :
    isHalfOpen label = false := by
  rw [isHalfOpen.eq_def]
  split
  · exact absurd .classValue opened
  · exact absurd .getter opened
  · exact absurd .setter opened
  · rfl

/-- What is in the scope of a part is in that of a construct that is open. -/
theorem InScope.of_part {label : Label} {parts : List Node} {part target : Node} {aside : Bool}
    (span : Span) (opened : ¬Encloses label) (member : part ∈ parts)
    (inScope : InScope aside part target) : InScope aside (.mk label span parts) target := by
  have notHalfOpen := isHalfOpen_of_not_encloses opened
  have around := InScope.into span ((mem_partsInScope_iff notHalfOpen).mpr ⟨opened, member⟩) inScope
  rwa [notHalfOpen, Bool.or_false] at around

/-- **The walk gets to what is in scope outside of every half-open construct.** -/
theorem inScope_iff_reaches {node target : Node} :
    InScope false node target ↔ Reaches node target := by
  constructor
  · intro inScope
    generalize isFalse : false = aside at inScope
    induction inScope with
    | here node => exact .here node
    | into span member _ ih =>
        obtain ⟨notAside, notHalfOpen⟩ := Bool.or_eq_false_iff.mp isFalse.symm
        obtain ⟨opened, isPart⟩ := (mem_partsInScope_iff notHalfOpen).mp member
        exact .into span opened isPart (ih notAside.symm)
  · intro reaches
    induction reaches with
    | here node => exact .here node
    | into span opened isPart _ ih => exact ih.of_part span opened isPart

theorem invokesInScope_iff_invokes {statements : List Node} {name : String} :
    InvokesInScope false statements name ↔ Invokes statements name := by
  simp only [InvokesInScope, Invokes, inScope_iff_reaches]

/-- **A declared function is recorded exactly if it is called in the scope of the statements,
outside of every half-open construct.** -/
theorem extract_iff_invokesInScope (text : List Char) (sourcePath : String)
    (statements : List Node) (name : String) :
    (∃ method ∈ extract text sourcePath statements, method.name = name) ↔
      (∃ position span, DeclaresAt statements position name span) ∧
        InvokesInScope false statements name := by
  rw [exists_mem_extract_iff, invokesInScope_iff_invokes]

/-- A function that is called in the computed key of a method. -/
def methodKeyText : List Char :=
  "function f() {}\nconst o = { [f()]() {} };\n".toList

example : (extract methodKeyText "a.js" (statementsOf methodKeyText)).map (·.name) = ["f"] := by
  decide +kernel

/-! ## Half-open constructs -/

/-- What a class extends is in scope. -/
theorem InScope.of_heritage {heritage : List Node} {body part : Node} (span : Span)
    (member : part ∈ heritage) : InScope true (.mk .classValue span (heritage ++ [body])) part := by
  have inFront : part ∈ partsInScope .classValue (heritage ++ [body]) := by
    rwa [partsInScope, List.dropLast_concat]
  have around := InScope.into span inFront (.here part)
  exact around

/-- The computed key of an accessor is in scope. -/
theorem InScope.of_accessorKey {label : Label} (accessor : label = .getter ∨ label = .setter)
    (span keySpan : Span) (expression function : Node) :
    InScope true (.mk label span [.mk .computedKey keySpan [expression], function]) expression := by
  have inKey : InScope false (.mk .computedKey keySpan [expression]) expression :=
    .of_part keySpan nofun (List.mem_singleton_self _) (.here expression)
  rcases accessor with rfl | rfl
  · have around := InScope.into span (show _ ∈ partsInScope .getter [_, function] from
      List.mem_singleton_self _) inKey
    exact around
  · have around := InScope.into span (show _ ∈ partsInScope .setter [_, function] from
      List.mem_singleton_self _) inKey
    exact around

/-- A function that is called in what a class extends. -/
def heritageText : List Char :=
  "function f() {}\nclass A extends f() {}\n".toList

/-- A function that is called in the computed key of an accessor. -/
def accessorKeyText : List Char :=
  "function f() {}\nconst o = { get [f()]() {} };\n".toList

/-- The declaration of `f` that both texts begin with. -/
def declarationOfF : Node :=
  .mk (.functionDeclaration "f") ⟨0, 15⟩ [.mk (.function false false) ⟨0, 15⟩
    [.mk .parameters ⟨10, 12⟩ [], .mk .block ⟨13, 15⟩ []]]

/-- A call of `f` without arguments. -/
def callOfF (span nameSpan : Span) : Node :=
  .mk .call span [.mk (.reference "f") nameSpan []]

theorem calls_callOfF (span nameSpan : Span) : Calls "f" (callOfF span nameSpan) :=
  .call span [] .bare

theorem statementsOf_heritageText :
    statementsOf heritageText = [declarationOfF,
      .mk (.classDeclaration "A") ⟨16, 38⟩ [.mk .classValue ⟨16, 38⟩
        ([callOfF ⟨32, 35⟩ ⟨32, 33⟩] ++ [.mk .classBody ⟨36, 38⟩ []])]] := by
  decide +kernel

theorem statementsOf_accessorKeyText :
    statementsOf accessorKeyText = [declarationOfF,
      .mk (.variableDeclaration "const") ⟨16, 45⟩ [.mk .declarator ⟨22, 44⟩
        [.mk (.binding "o") ⟨22, 23⟩ [], .mk .objectLiteral ⟨26, 44⟩
          [.mk .getter ⟨28, 42⟩ [.mk .computedKey ⟨32, 37⟩ [callOfF ⟨33, 36⟩ ⟨33, 34⟩],
            .mk (.function false false) ⟨28, 42⟩
              [.mk .parameters ⟨37, 39⟩ [], .mk .block ⟨40, 42⟩ []]]]]]] := by
  decide +kernel

/-- The name is declared, and called in the scope of the statements, but not recorded. -/
def Overlooks (text : List Char) (name : String) : Prop :=
  (∃ position span, DeclaresAt (statementsOf text) position name span) ∧
    InvokesInScope true (statementsOf text) name ∧
    ∀ method ∈ extract text "a.js" (statementsOf text), method.name ≠ name

theorem declares_declarationOfF (statements : List Node) :
    ∃ position span, DeclaresAt (declarationOfF :: statements) position "f" span :=
  ⟨toLex (0, 0), ⟨0, 15⟩, .ofFunction rfl⟩

/-- **A call in what a class extends, or in the computed key of an accessor, goes unnoticed.** -/
theorem extract_heritage_and_accessorKey :
    Overlooks heritageText "f" ∧ Overlooks accessorKeyText "f" := by
  refine ⟨⟨?_, ?_, by decide +kernel⟩, ?_, ?_, by decide +kernel⟩
  · rw [statementsOf_heritageText]
    exact declares_declarationOfF _
  · rw [statementsOf_heritageText]
    refine ⟨_, List.mem_cons_of_mem _ List.mem_cons_self, _, ?_, calls_callOfF ⟨32, 35⟩ ⟨32, 33⟩⟩
    exact .of_part _ nofun (List.mem_singleton_self _) (.of_heritage _ (List.mem_singleton_self _))
  · rw [statementsOf_accessorKeyText]
    exact declares_declarationOfF _
  · rw [statementsOf_accessorKeyText]
    refine ⟨_, List.mem_cons_of_mem _ List.mem_cons_self, _, ?_, calls_callOfF ⟨33, 36⟩ ⟨33, 34⟩⟩
    refine .of_part _ nofun (List.mem_singleton_self _) ?_
    refine .of_part _ nofun (List.mem_cons_of_mem _ List.mem_cons_self) ?_
    refine .of_part _ nofun (List.mem_singleton_self _) ?_
    exact .of_accessorKey (.inl rfl) _ _ _ _

end Invocation

end SampleMethods
