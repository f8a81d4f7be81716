import SampleMethods.Proofs.Invocation.Extraction
import SampleMethods.Proofs.Script.Skeleton
import SampleMethods.Script.Parse

/-!
# Extractions from skeletons

What is called in a construct and what a statement declares do not depend on spans, nor
on parentheses around expressions: the skeleton calls the same names
(`calledNames_skeleton`) and declares the same names (`names_candidates_skeleton`). So
statements with the same skeletons have methods with the same names in the same order
(`names_extract_of_skeletons`).
-/

set_option autoImplicit false

namespace SampleMethods

open Script Script.Node

namespace Invocation

/-! ## Calls -/

theorem calledName?_of_ne {label : Label} (noCall : label ≠ .call) (parts : List Node) :
    calledName? label parts = none := by
  rw [calledName?.eq_def]
  split
  · exact absurd rfl noCall
  · rfl

/-- Parentheses around the callee make no difference to what is called. -/
theorem calledName?_skeletons (label : Label) (parts : List Node) :
    calledName? label (skeletons parts) = calledName? label parts := by
  by_cases isCall : label = .call
  · subst isCall
    cases parts with
    | nil => rfl
    | cons callee arguments =>
        simp only [skeletons, calledName?, label_withoutParentheses_skeleton]
  · rw [calledName?_of_ne isCall, calledName?_of_ne isCall]

theorem calledNames_parentheses (span : Span) (inner : Node) :
    calledNames (.mk .parentheses span [inner]) = calledNames inner := by
  simp [calledNames, calledNamesIn, isClosed, calledName?]

theorem calledNames_unwrapped (inner : Node) : calledNames inner.unwrapped = calledNames inner := by
  rw [unwrapped]
  split
  · rfl
  · exact calledNames_parentheses _ inner

/-- **The calls in a construct are those in its skeleton.** -/
theorem calledNames_skeleton (node : Node) : calledNames node.skeleton = calledNames node := by
  induction node using skeleton.induct
    (motive_2 := fun nodes => calledNamesIn (skeletons nodes) = calledNamesIn nodes) with
  | case1 span inner ih => rw [skeleton, calledNames_unwrapped, ih, calledNames_parentheses]
  | case2 name span label functionSpan parts ih =>
      simp only [skeleton, calledNames, calledNamesIn, calledName?_skeletons, ih,
        calledName?_of_ne (show Label.functionDeclaration name ≠ .call by simp)]
  | case3 label span parts notInner notDeclared ih =>
      rw [skeleton.eq_3 _ _ _ notInner notDeclared, calledNames, calledNames,
        calledName?_skeletons, ih]
  | case4 => rfl
  | case5 node nodes ih others => rw [skeletons, calledNamesIn, calledNamesIn, ih, others]

theorem calledNamesIn_skeletons (nodes : List Node) :
    calledNamesIn (skeletons nodes) = calledNamesIn nodes := by
  induction nodes with
  | nil => rfl
  | cons node nodes ih => rw [skeletons, calledNamesIn, calledNamesIn, ih, calledNames_skeleton]

/-! ## Candidates -/

theorem candidateOfDeclarator?_of_label {node : Node} (noDeclarator : node.label ≠ .declarator) :
    candidateOfDeclarator? node = none := by
  rw [candidateOfDeclarator?.eq_def]
  split
  · exact absurd rfl noDeclarator
  · rfl

/-- Only a plain name makes a candidate. -/
theorem candidateOfDeclarator?_of_not_binding {span : Span} {parts : List Node}
    (noName : ∀ first name, parts.head? = some first → first.label ≠ .binding name) :
    candidateOfDeclarator? (.mk .declarator span parts) = none := by
  rw [candidateOfDeclarator?]
  split
  · rename_i name _ _ _ isFirst _
    exact absurd rfl (noName _ name isFirst)
  · rfl

/-- A name that a declarator gives a function is one in its skeleton. -/
theorem name_candidateOfDeclarator?_skeleton (node : Node) :
    (candidateOfDeclarator? node.skeleton).map (·.name) =
      (candidateOfDeclarator? node).map (·.name) := by
  by_cases isDeclarator : node.label = .declarator
  · obtain ⟨_, span, parts⟩ := node
    obtain rfl : _ = Label.declarator := isDeclarator
    have isSkeleton : (Node.mk .declarator span parts).skeleton =
        .mk .declarator .nowhere (parts.map skeleton) := by
      rw [← skeletons_eq_map]
      exact skeleton_of_label (by simp) (by simp) span parts
    rw [isSkeleton]
    by_cases isName : ∃ first name, parts.head? = some first ∧ first.label = .binding name
    · obtain ⟨⟨_, nameSpan, nameParts⟩, name, isFirst, isLabel⟩ := isName
      obtain rfl : _ = Label.binding name := isLabel
      obtain ⟨value, isLast⟩ : ∃ value, parts.getLast? = some value := by
        cases parts with
        | nil => cases isFirst
        | cons first others => exact ⟨_, List.getLast?_eq_some_getLast (List.cons_ne_nil _ _)⟩
      have isFirstSkeleton : (Node.mk (.binding name) nameSpan nameParts).skeleton =
          .mk (.binding name) .nowhere (skeletons nameParts) := rfl
      simp only [candidateOfDeclarator?, List.head?_map, List.getLast?_map, isFirst, isLast,
        Option.map_some, isFirstSkeleton, isFunctionValue_skeleton]
      split <;> rfl
    · rw [candidateOfDeclarator?_of_not_binding, candidateOfDeclarator?_of_not_binding]
      · exact fun first name isFirst isLabel => isName ⟨first, name, isFirst, isLabel⟩
      · intro first name isFirst isLabel
        obtain ⟨part, isPart, rfl⟩ := Option.map_eq_some_iff.mp (List.head?_map ▸ isFirst)
        exact isName ⟨part, name, isPart, (label_skeleton_eq_iff rfl (by simp)).mp isLabel⟩
  · have noDeclarator : node.skeleton.label ≠ .declarator := fun isLabel =>
      isDeclarator ((label_skeleton_eq_iff rfl (by simp)).mp isLabel)
    rw [candidateOfDeclarator?_of_label isDeclarator, candidateOfDeclarator?_of_label noDeclarator]

/-- The body of a function is that of its skeleton. -/
theorem functionBody?_skeletons (label : Label) (span : Span) (parts : List Node) :
    Node.functionBody? (.mk label .nowhere (skeletons parts)) =
      (Node.functionBody? (.mk label span parts)).map skeletons := by
  cases isBody : Node.functionBody? (.mk label span parts) with
  | some body =>
      obtain ⟨asynchronous, generator, _, parameters, blockSpan, same⟩ :=
        functionBody?_eq_some.mp isBody
      cases same
      rfl
  | none =>
      rw [Option.map_none, Option.eq_none_iff_forall_ne_some]
      intro body isSkeleton
      obtain ⟨asynchronous, generator, _, parameters, blockSpan, same⟩ :=
        functionBody?_eq_some.mp isSkeleton
      injection same with isFunction _ isParts
      subst isFunction
      rw [skeletons_eq_map, List.map_eq_cons_iff] at isParts
      obtain ⟨head, rest, rfl, _, isRest⟩ := isParts
      obtain ⟨⟨blockLabel, otherSpan, statements⟩, rfl, isBlock⟩ := List.map_eq_singleton_iff.mp isRest
      have isLabel : (Node.mk blockLabel otherSpan statements).skeleton.label = .block := by
        rw [isBlock]
        rfl
      obtain rfl : blockLabel = .block := (label_skeleton_eq_iff rfl (by simp)).mp isLabel
      cases isBody

/-- The function that a statement defines is the one that its skeleton defines. -/
theorem definedFunction?_skeleton (node : Node) :
    node.skeleton.definedFunction?.map (fun (name, _, body) => (name, body)) =
      node.definedFunction?.map fun (name, _, body) => (name, skeletons body) := by
  cases node using skeleton.fun_cases with
  | case1 span inner =>
      have noDeclaration : ∀ name otherSpan function,
          (Node.mk .parentheses span [inner]).skeleton ≠
            .mk (.functionDeclaration name) otherSpan [function] := by
        intro name otherSpan function same
        have isLabel : (Node.mk .parentheses span [inner]).skeleton.label =
            .functionDeclaration name := by
          rw [same]
          rfl
        cases (label_skeleton_eq_iff rfl (by simp)).mp isLabel
      rw [definedFunction?.eq_2 _ noDeclaration]
      rfl
  | case2 name span label functionSpan parts =>
      rw [skeleton, definedFunction?, definedFunction?,
        functionBody?_skeletons label functionSpan]
      cases Node.functionBody? (.mk label functionSpan parts) with
      | none => rfl
      | some body => rfl
  | case3 label span parts notInner notDeclared =>
      have noFunction : ∀ name otherSpan function,
          Node.mk label span parts ≠ .mk (.functionDeclaration name) otherSpan [function] := by
        rintro name otherSpan ⟨_, _, _⟩ same
        injection same with isLabel _ isParts
        exact notDeclared name _ _ _ isLabel isParts
      rw [definedFunction?.eq_2 _ noFunction, skeleton.eq_3 _ _ _ notInner notDeclared,
        definedFunction?.eq_2 _ fun name otherSpan function same => ?_]
      · rfl
      · injection same with isLabel _ isParts
        rw [skeletons_eq_map] at isParts
        obtain ⟨part, rfl, _⟩ := List.map_eq_singleton_iff.mp isParts
        exact noFunction name span part (by rw [isLabel])

/-- Any other statement declares no function. -/
theorem candidates_of_undefined {statement : Node} (noFunction : statement.definedFunction? = none)
    (noVariables : ∀ keyword, statement.label ≠ .variableDeclaration keyword) :
    candidates statement = [] := by
  unfold candidates
  rw [noFunction]
  dsimp only
  split
  · rename_i keyword _ _
    exact absurd rfl (noVariables keyword)
  · rfl

/-- **The names of the candidates of a statement are those in its skeleton.** -/
theorem names_candidates_skeleton (statement : Node) :
    (candidates statement.skeleton).map (·.name) = (candidates statement).map (·.name) := by
  have sameFunction := definedFunction?_skeleton statement
  cases isFunction : statement.definedFunction? with
  | some defined =>
      rw [isFunction] at sameFunction
      obtain ⟨⟨name, function, body⟩, isDefined, same⟩ := Option.map_eq_some_iff.mp sameFunction
      have sameName : name = defined.1 := (Prod.mk.inj same).1
      simp only [candidates, isFunction, isDefined, sameName, List.map_cons, List.map_nil]
  | none =>
      rw [isFunction, Option.map_none, Option.map_eq_none_iff] at sameFunction
      by_cases isVariables : ∃ keyword, statement.label = .variableDeclaration keyword
      · obtain ⟨keyword, isLabel⟩ := isVariables
        obtain ⟨_, span, declarators⟩ := statement
        obtain rfl : _ = Label.variableDeclaration keyword := isLabel
        have isSkeleton : (Node.mk (.variableDeclaration keyword) span declarators).skeleton =
            .mk (.variableDeclaration keyword) .nowhere (declarators.map skeleton) := by
          rw [← skeletons_eq_map]
          exact skeleton_of_label (by simp) (by simp) span declarators
        have onDeclarators : ∀ otherSpan others,
            candidates (.mk (.variableDeclaration keyword) otherSpan others) =
              others.filterMap candidateOfDeclarator? := fun _ _ => rfl
        rw [isSkeleton, onDeclarators, onDeclarators, List.map_filterMap, List.map_filterMap,
          List.filterMap_map]
        exact congrArg (List.filterMap · declarators)
          (funext name_candidateOfDeclarator?_skeleton)
      · rw [candidates_of_undefined isFunction (not_exists.mp isVariables),
          candidates_of_undefined sameFunction fun keyword isLabel => isVariables
            ⟨keyword, (label_skeleton_eq_iff rfl (by simp)).mp isLabel⟩]

/-! ## Extractions -/

theorem names_firstOfEachName (declared : List Candidate) :
    (firstOfEachName declared).map (·.name) = keepFirst id (declared.map (·.name)) := by
  induction declared with
  | nil => rfl
  | cons first rest ih =>
      have restNames : ((firstOfEachName rest).filter (·.name != first.name)).map (·.name) =
          ((firstOfEachName rest).map (·.name)).filter (· != first.name) := by
        rw [List.filter_map]
        rfl
      rw [List.map_cons, keepFirst, ← ih]
      exact congrArg (first.name :: ·) restNames

/-- The names of the methods are the names of the candidates, once each, that are called. -/
theorem names_extract (text : List Char) (sourcePath : String) (statements : List Node) :
    (extract text sourcePath statements).map (·.name) =
      (keepFirst id ((statements.flatMap candidates).map (·.name))).filter
        (calledNamesIn statements).contains := by
  rw [← names_firstOfEachName, List.filter_map, extract, List.map_map]
  rfl

/-- **Statements and their skeletons have methods with the same names**, in the same order. -/
theorem names_extract_skeletons (text other : List Char) (sourcePath otherPath : String)
    (statements : List Node) :
    (extract text sourcePath (skeletons statements)).map (·.name) =
      (extract other otherPath statements).map (·.name) := by
  have sameNames : ((skeletons statements).flatMap candidates).map (·.name) =
      (statements.flatMap candidates).map (·.name) := by
    rw [skeletons_eq_map, List.flatMap_map, List.map_flatMap, List.map_flatMap]
    exact congrArg (List.flatMap · statements) (funext names_candidates_skeleton)
  rw [names_extract, names_extract, sameNames, calledNamesIn_skeletons]

/-- **Neither spans nor parentheses around expressions matter to the names that are extracted.**
Statements that are the same without them have methods with the same names in the same order. -/
theorem names_extract_of_skeletons {statements others : List Node}
    (same : skeletons statements = skeletons others) (text other : List Char)
    (sourcePath otherPath : String) :
    (extract text sourcePath statements).map (·.name) =
      (extract other otherPath others).map (·.name) := by
  rw [← names_extract_skeletons text text sourcePath sourcePath, same,
    names_extract_skeletons text other sourcePath otherPath]

/-- Two functions, one of which is called in the arguments of the other. -/
def plainText : List Char :=
  "const f = function () {};\nfunction g() {}\nf(g());\n".toList

/-- The same on one line, with parentheses around the value, the names and the argument. -/
def enclosedText : List Char :=
  "const f = ((function () {})); function g() {} ((f))(((g)()));\n".toList

/-- The statements of a script, if the text is one. -/
def statementsOf (text : List Char) : List Node :=
  match Module.parse .javaScript text with
  | .ok script => script.statements
  | .error _ => []

theorem names_extract_of_skeletons_enclosed :
    skeletons (statementsOf plainText) = skeletons (statementsOf enclosedText) ∧
      (extract plainText "a.js" (statementsOf plainText)).map (·.name) = ["f", "g"] ∧
      (extract enclosedText "b.js" (statementsOf enclosedText)).map (·.name) = ["f", "g"] := by
  have same : skeletons (statementsOf plainText) = skeletons (statementsOf enclosedText) := by
    decide +kernel
  have names : (extract plainText "a.js" (statementsOf plainText)).map (·.name) = ["f", "g"] := by
    decide +kernel
  refine ⟨same, names, ?_⟩
  rw [← names, names_extract_of_skeletons same plainText enclosedText "a.js" "b.js"]

end Invocation

end SampleMethods
