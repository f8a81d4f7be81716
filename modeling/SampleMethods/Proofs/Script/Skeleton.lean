import SampleMethods.Proofs.Script.Parentheses

/-!
# Trees without their formatting

A tree keeps where its nodes stand and which expressions stand in parentheses. Without
the spans it is the tree that all ways to format the script share (`withoutSpans`), and
without the parentheses around expressions as well it is the skeleton of the script
(`skeleton`). A skeleton does not depend on spans (`skeleton_withoutSpans`).

Parentheses are taken away only around what is an expression. The function of a
declaration is none, so nothing around it is taken away.
-/

set_option autoImplicit false

namespace SampleMethods.Script

/-- The span of a node that stands nowhere. -/
def Span.nowhere : Span := ⟨0, 0⟩

/-- Whether the construct is an expression, which may stand in parentheses. -/
def Label.isExpression : Label → Bool
  | function .. | arrow _ | classValue | reference _ | literal _ | template _ |
    taggedTemplate _ | arrayLiteral | objectLiteral | sequence | call | optionalCall |
    construct _ | member _ | computedMember | optionalMember _ | optionalComputedMember |
    this | metaProperty _ | privateName _ | unary _ | update .. | binary _ | assignment _ |
    conditional | yield _ | await | nonNull | typeAssertion _ | instantiation | invalid |
    element _ | fragment => true
  | _ => false

namespace Node

/-! ## Taking the formatting away -/

mutual

/-- The node without the spans in it. -/
def withoutSpans : Node → Node
  | mk label _ parts => mk label .nowhere (withoutSpansIn parts)

/-- A row of nodes without the spans in them. -/
def withoutSpansIn : List Node → List Node
  | [] => []
  | node :: nodes => node.withoutSpans :: withoutSpansIn nodes

end

/-- What is left of a node in parentheses: the node itself, if it is an expression. -/
def unwrapped (inner : Node) : Node :=
  if inner.label.isExpression then inner else mk .parentheses .nowhere [inner]

mutual

/-- The node without the spans in it and the parentheses around expressions. -/
def skeleton : Node → Node
  | mk .parentheses _ [inner] => inner.skeleton.unwrapped
  | mk (.functionDeclaration name) _ [mk label _ parts] =>
    mk (.functionDeclaration name) .nowhere [mk label .nowhere (skeletons parts)]
  | mk label _ parts => mk label .nowhere (skeletons parts)

/-- A row of nodes without the spans in them and the parentheses around expressions. -/
def skeletons : List Node → List Node
  | [] => []
  | node :: nodes => node.skeleton :: skeletons nodes

end

theorem withoutSpansIn_eq_map (nodes : List Node) :
    withoutSpansIn nodes = nodes.map withoutSpans := by
  induction nodes with
  | nil => rfl
  | cons node nodes ih => rw [withoutSpansIn, ih, List.map_cons]

theorem skeletons_eq_map (nodes : List Node) : skeletons nodes = nodes.map skeleton := by
  induction nodes with
  | nil => rfl
  | cons node nodes ih => rw [skeletons, ih, List.map_cons]

/-! ## What a skeleton keeps -/

/-- A node that is not in parentheses keeps its label, and is not in parentheses afterwards. -/
theorem skeleton_of_not_enclosed {node : Node}
    (notEnclosed : ∀ span inner, node ≠ mk .parentheses span [inner]) :
    node.skeleton.label = node.label ∧
      ∀ span inner, node.skeleton ≠ mk .parentheses span [inner] := by
  cases node using skeleton.fun_cases with
  | case1 span inner => exact absurd rfl (notEnclosed span inner)
  | case2 name span label functionSpan parts =>
      rw [skeleton]
      exact ⟨rfl, fun _ _ same => by cases same⟩
  | case3 label span parts notInner notDeclared =>
      rw [skeleton.eq_3 _ _ _ notInner notDeclared, skeletons_eq_map]
      refine ⟨rfl, fun otherSpan inner same => ?_⟩
      injection same with isLabel _ isParts
      obtain ⟨part, rfl, _⟩ := List.map_eq_singleton_iff.mp isParts
      exact notInner part isLabel rfl

theorem skeleton_of_label {label : Label} (notEnclosed : label ≠ .parentheses)
    (notDeclared : ∀ name, label ≠ .functionDeclaration name) (span : Span) (parts : List Node) :
    (mk label span parts).skeleton = mk label .nowhere (skeletons parts) :=
  skeleton.eq_3 label span parts (fun _ isLabel => absurd isLabel notEnclosed)
    fun name _ _ _ isLabel => absurd isLabel (notDeclared name)

/-- A label that neither expressions nor parentheses have is kept and not gained. -/
theorem label_skeleton_eq_iff {node : Node} {label : Label}
    (noExpression : label.isExpression = false) (noParentheses : label ≠ .parentheses) :
    node.skeleton.label = label ↔ node.label = label := by
  by_cases enclosed : ∃ span inner, node = mk .parentheses span [inner]
  · obtain ⟨span, inner, rfl⟩ := enclosed
    rw [skeleton, unwrapped]
    constructor
    · intro isLabel
      split at isLabel
      · rename_i isExpression
        rw [isLabel, noExpression] at isExpression
        cases isExpression
      · exact absurd isLabel.symm noParentheses
    · exact fun isLabel => absurd isLabel.symm noParentheses
  · have notEnclosed := fun span inner same => enclosed ⟨span, inner, same⟩
    rw [(skeleton_of_not_enclosed notEnclosed).1]

/-- What stands in all the parentheses is of the same kind. -/
theorem label_withoutParentheses_skeleton (node : Node) :
    node.skeleton.withoutParentheses.label = node.withoutParentheses.label := by
  induction node using withoutParentheses.induct with
  | case1 span inner ih =>
      have isUnwrapped : inner.skeleton.unwrapped.withoutParentheses =
          inner.skeleton.withoutParentheses := by
        rw [unwrapped]
        split
        · rfl
        · rw [withoutParentheses]
      rw [skeleton, isUnwrapped, ih, withoutParentheses]
  | case2 node notEnclosed =>
      obtain ⟨isLabel, notInner⟩ := skeleton_of_not_enclosed notEnclosed
      rw [withoutParentheses.eq_2 _ notInner, withoutParentheses.eq_2 _ notEnclosed, isLabel]

/-- Whether a node is a function shows in what stands in all the parentheses. -/
theorem isFunctionValue_iff_label {node : Node} :
    node.isFunctionValue = true ↔ node.withoutParentheses.label.MakesFunction := by
  rw [isFunctionValue_iff]
  constructor
  · rintro ⟨function, makes, parenthesized⟩
    have notEnclosed : function.label ≠ .parentheses := by
      intro enclosed
      rw [enclosed] at makes
      cases makes
    rwa [parenthesized.withoutParentheses_eq notEnclosed]
  · exact fun makes => ⟨_, makes, parenthesized_withoutParentheses node⟩

theorem isFunctionValue_skeleton (node : Node) :
    node.skeleton.isFunctionValue = node.isFunctionValue := by
  rw [Bool.eq_iff_iff, isFunctionValue_iff_label, isFunctionValue_iff_label,
    label_withoutParentheses_skeleton]

/-! ## Spans -/

/-- **A skeleton does not depend on spans.** -/
theorem skeleton_withoutSpans (node : Node) : node.withoutSpans.skeleton = node.skeleton := by
  induction node using skeleton.induct
    (motive_2 := fun nodes => skeletons (withoutSpansIn nodes) = skeletons nodes) with
  | case1 span inner ih =>
      rw [withoutSpans, withoutSpansIn, withoutSpansIn, skeleton, skeleton, ih]
  | case2 name span label functionSpan parts ih =>
      rw [withoutSpans, withoutSpansIn, withoutSpansIn, withoutSpans, skeleton, skeleton, ih]
  | case3 label span parts notInner notDeclared ih =>
      rw [withoutSpans, skeleton.eq_3 _ _ _ notInner notDeclared, skeleton.eq_3, ih]
      · intro inner isLabel isParts
        rw [withoutSpansIn_eq_map] at isParts
        obtain ⟨part, isPart, _⟩ := List.map_eq_singleton_iff.mp isParts
        exact notInner part isLabel isPart
      · intro name inner innerSpan innerParts isLabel isParts
        rw [withoutSpansIn_eq_map] at isParts
        obtain ⟨⟨_, _, _⟩, isPart, _⟩ := List.map_eq_singleton_iff.mp isParts
        exact notDeclared name _ _ _ isLabel isPart
  | case4 => rfl
  | case5 node nodes ih others => rw [withoutSpansIn, skeletons, skeletons, ih, others]

/-! ## Comparing trees -/

mutual

/-- Decides whether two nodes are equal. -/
def decideEq : (first second : Node) → Decidable (first = second)
  | mk label span parts, mk otherLabel otherSpan otherParts =>
    match decEq label otherLabel, decEq span otherSpan, decideEqIn parts otherParts with
    | isTrue sameLabel, isTrue sameSpan, isTrue sameParts =>
      isTrue (sameLabel ▸ sameSpan ▸ sameParts ▸ rfl)
    | isFalse differs, _, _ => isFalse fun same => differs (mk.inj same).1
    | _, isFalse differs, _ => isFalse fun same => differs (mk.inj same).2.1
    | _, _, isFalse differs => isFalse fun same => differs (mk.inj same).2.2

/-- Decides whether two rows of nodes are equal. -/
def decideEqIn : (first second : List Node) → Decidable (first = second)
  | [], [] => isTrue rfl
  | [], _ :: _ => isFalse nofun
  | _ :: _, [] => isFalse nofun
  | node :: nodes, other :: others =>
    match decideEq node other, decideEqIn nodes others with
    | isTrue same, isTrue sameRest => isTrue (same ▸ sameRest ▸ rfl)
    | isFalse differs, _ => isFalse fun same => differs (List.cons.inj same).1
    | _, isFalse differs => isFalse fun same => differs (List.cons.inj same).2

end

instance : DecidableEq Node := decideEq

end Node

/-! ## Scripts -/

deriving instance DecidableEq for Module

namespace Module

/-- The script without the spans in it. -/
def withoutSpans (script : Module) : Module :=
  ⟨Node.withoutSpansIn script.items⟩

/-- The script without the spans in it and the parentheses around expressions. -/
def skeleton (script : Module) : Module :=
  ⟨Node.skeletons script.items⟩

/-- Scripts that are the same up to spans have the same skeleton. -/
theorem skeleton_eq_of_withoutSpans {script other : Module}
    (same : script.withoutSpans = other.withoutSpans) : script.skeleton = other.skeleton := by
  have spanless : ∀ items : List Node,
      Node.skeletons (Node.withoutSpansIn items) = Node.skeletons items := by
    intro items
    rw [Node.skeletons_eq_map, Node.withoutSpansIn_eq_map, List.map_map, Node.skeletons_eq_map]
    exact congrArg (List.map · items) (funext Node.skeleton_withoutSpans)
  have sameItems : Node.withoutSpansIn script.items = Node.withoutSpansIn other.items :=
    congrArg Module.items same
  rw [skeleton, skeleton, ← spanless script.items, sameItems, spanless]

theorem isStatement_iff {item : Node} :
    isStatement item = true ↔ ∀ source,
      item.label ≠ .importDeclaration source ∧ item.label ≠ .exportDeclaration source := by
  rw [isStatement]
  split
  · rename_i source isImport
    exact iff_of_false Bool.false_ne_true fun other => (other source).1 isImport
  · rename_i source isExport
    exact iff_of_false Bool.false_ne_true fun other => (other source).2 isExport
  · rename_i noImport noExport
    exact iff_of_true rfl fun source => ⟨noImport source, noExport source⟩

theorem isStatement_skeleton (item : Node) : isStatement item.skeleton = isStatement item := by
  have sameLabel : ∀ label : Label, label.isExpression = false → label ≠ .parentheses →
      (item.skeleton.label = label ↔ item.label = label) := fun label =>
    Node.label_skeleton_eq_iff
  rw [Bool.eq_iff_iff, isStatement_iff, isStatement_iff]
  refine forall_congr' fun source => ?_
  rw [Ne, Ne, sameLabel _ rfl (by simp), sameLabel _ rfl (by simp)]

/-- The statements of a skeleton are the skeletons of the statements. -/
theorem statements_skeleton (script : Module) :
    script.skeleton.statements = Node.skeletons script.statements := by
  rw [statements, skeleton, Node.skeletons_eq_map, Node.skeletons_eq_map, List.filter_map,
    statements]
  exact congrArg (List.map Node.skeleton <| List.filter · script.items) (funext isStatement_skeleton)

end Module

end SampleMethods.Script
