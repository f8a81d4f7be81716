import SampleMethods.Script.Tree

/-!
# Nodes in parentheses

A node that stands in parentheses keeps its own tree, and every pair of
parentheses is a node around it. Taking the parentheses away gives a node that
the given one is the parenthesized form of (`parenthesized_withoutParentheses`),
and no other node without parentheses of its own
(`Parenthesized.withoutParentheses_eq`).
-/

set_option autoImplicit false

namespace SampleMethods.Script

/-- What makes a function when it is evaluated. -/
inductive Label.MakesFunction : Label → Prop where
  | function (asynchronous generator : Bool) : MakesFunction (.function asynchronous generator)
  | arrow (asynchronous : Bool) : MakesFunction (.arrow asynchronous)

namespace Node

/-- The second node is the first one in any number of parentheses. -/
inductive Parenthesized (inner : Node) : Node → Prop where
  | bare : Parenthesized inner inner
  | enclosed {outer : Node} (span : Span) :
      Parenthesized inner outer → Parenthesized inner (.mk .parentheses span [outer])

/-- Only parentheses around one node are taken away. -/
theorem withoutParentheses_of_label {node : Node} (bare : node.label ≠ .parentheses) :
    node.withoutParentheses = node := by
  rw [withoutParentheses.eq_def]
  split
  · exact absurd rfl bare
  · rfl

theorem parenthesized_withoutParentheses (node : Node) :
    Parenthesized node.withoutParentheses node := by
  induction node using withoutParentheses.induct with
  | case1 span inner ih =>
      rw [withoutParentheses]
      exact .enclosed span ih
  | case2 node other =>
      rw [withoutParentheses.eq_def]
      split
      · exact absurd rfl (other _ _)
      · exact .bare

theorem Parenthesized.withoutParentheses_eq {inner outer : Node}
    (parenthesized : Parenthesized inner outer) (bare : inner.label ≠ .parentheses) :
    outer.withoutParentheses = inner := by
  induction parenthesized with
  | bare => exact withoutParentheses_of_label bare
  | enclosed span _ ih =>
      rw [withoutParentheses]
      exact ih

/-- A name is left over exactly from a name in parentheses. -/
theorem withoutParentheses_label_eq_reference {node : Node} {name : String} :
    node.withoutParentheses.label = .reference name ↔
      ∃ span parts, Parenthesized (.mk (.reference name) span parts) node := by
  constructor
  · intro label
    have parenthesized := parenthesized_withoutParentheses node
    cases inner : node.withoutParentheses with
    | mk innerLabel span parts =>
      rw [inner] at label parenthesized
      subst label
      exact ⟨span, parts, parenthesized⟩
  · rintro ⟨span, parts, parenthesized⟩
    rw [parenthesized.withoutParentheses_eq (by simp [label])]
    rfl

/-- A node is a function value exactly when it is a function in parentheses. -/
theorem isFunctionValue_iff {node : Node} :
    node.isFunctionValue = true ↔
      ∃ function, function.label.MakesFunction ∧ Parenthesized function node := by
  constructor
  · intro value
    induction node using isFunctionValue.induct with
    | case1 asynchronous generator span parts =>
        exact ⟨.mk (.function asynchronous generator) span parts,
          .function asynchronous generator, .bare⟩
    | case2 asynchronous span parts =>
        exact ⟨.mk (.arrow asynchronous) span parts, .arrow asynchronous, .bare⟩
    | case3 span inner ih =>
        rw [isFunctionValue] at value
        obtain ⟨function, makes, parenthesized⟩ := ih value
        exact ⟨function, makes, .enclosed span parenthesized⟩
    | case4 node noFunction noArrow noParentheses =>
        rw [isFunctionValue.eq_def] at value
        split at value
        · exact absurd rfl (noFunction _ _ _ _)
        · exact absurd rfl (noArrow _ _ _)
        · exact absurd rfl (noParentheses _ _)
        · cases value
  · rintro ⟨⟨label, span, parts⟩, makes, parenthesized⟩
    induction parenthesized with
    | bare =>
        change label.MakesFunction at makes
        cases makes <;> rfl
    | enclosed _ _ ih =>
        rw [isFunctionValue]
        exact ih

end Node

end SampleMethods.Script
