import Mathlib.Data.Prod.Lex
import Mathlib.Order.WellFounded
import SampleMethods.Invocation
import SampleMethods.Proofs.Script.Parentheses

/-!
# Declarations of functions in a list of statements

A list of statements declares functions at positions: the index of a statement
and, for a declaration of variables, the index of a declarator in it. The
positions are ordered as the declarations stand in the source.

The candidates of an extraction are exactly these declarations, in the order of
their positions (`mem_located`, `located_sorted`), and what is kept of them is
the first declaration of each name (`mem_keepFirst`).
-/

set_option autoImplicit false

namespace SampleMethods

open Script

namespace Invocation

/-! ## Declarations at positions -/

/-- Where a declaration stands: the index of its statement, and of its declarator there. -/
abbrev Position := ℕ ×ₗ ℕ

/-- The statements declare a function with the name at a position: by a function declaration
with a body, or by a declarator that gives a plain name a function. The span is that of the
function or of the declarator. -/
inductive DeclaresAt (statements : List Node) : Position → String → Span → Prop where
  | ofFunction {index : ℕ} {name : String} {asynchronous generator : Bool}
      {outer span blockSpan : Span} {parameters : Node} {body : List Node} :
      statements[index]? = some (.mk (.functionDeclaration name) outer
        [.mk (.function asynchronous generator) span [parameters, .mk .block blockSpan body]]) →
      DeclaresAt statements (toLex (index, 0)) name span
  | ofDeclarator {index place : ℕ} {keyword name : String} {outer span nameSpan : Span}
      {declarators nameParts annotation : List Node} {function value : Node} :
      statements[index]? = some (.mk (.variableDeclaration keyword) outer declarators) →
      declarators[place]? = some (.mk .declarator span
        (.mk (.binding name) nameSpan nameParts :: annotation ++ [value])) →
      function.label.MakesFunction → Node.Parenthesized function value →
      DeclaresAt statements (toLex (index, place)) name span

/-- No earlier position of the statements declares the name. -/
def FirstDeclares (statements : List Node) (position : Position) (name : String)
    (span : Span) : Prop :=
  DeclaresAt statements position name span ∧
    ∀ other otherSpan, DeclaresAt statements other name otherSpan → position ≤ other

theorem FirstDeclares.position_unique {statements : List Node} {first second : Position}
    {name : String} {firstSpan secondSpan : Span}
    (one : FirstDeclares statements first name firstSpan)
    (other : FirstDeclares statements second name secondSpan) : first = second :=
  le_antisymm (one.2 _ _ other.1) (other.2 _ _ one.1)

/-- Every declared name has a first declaration. -/
theorem exists_firstDeclares {statements : List Node} {position : Position} {name : String}
    {span : Span} (declares : DeclaresAt statements position name span) :
    ∃ first firstSpan, FirstDeclares statements first name firstSpan := by
  obtain ⟨first, ⟨firstSpan, isFirst⟩, least⟩ := wellFounded_lt.has_min
    {position : Position | ∃ span, DeclaresAt statements position name span}
    ⟨position, span, declares⟩
  refine ⟨first, firstSpan, isFirst, fun other otherSpan again => ?_⟩
  exact not_lt.mp (least other ⟨otherSpan, again⟩)

/-! ## Candidates as declarations -/

/-- What a statement may declare, with a gap for each declarator that is no candidate. -/
def slots : Node → List (Option Candidate)
  | .mk (.variableDeclaration _) _ declarators => declarators.map candidateOfDeclarator?
  | statement => [statement.definedFunction?.map fun (name, function, _) => ⟨name, function.span⟩]

theorem candidates_eq_slots (statement : Node) :
    candidates statement = (slots statement).filterMap id := by
  unfold candidates slots
  split
  · rename_i name function body defined
    split
    · simp [Node.definedFunction?] at defined
    · simp [defined]
  · rename_i undefined
    split
    · rw [List.filterMap_map]
      rfl
    · rename_i noVariable
      simp [undefined]

theorem functionBody?_eq_some {node : Node} {body : List Node} :
    node.functionBody? = some body ↔
      ∃ asynchronous generator span parameters blockSpan,
        node = .mk (.function asynchronous generator) span
          [parameters, .mk .block blockSpan body] := by
  constructor
  · intro found
    unfold Node.functionBody? at found
    split at found
    · cases found
      exact ⟨_, _, _, _, _, rfl⟩
    · cases found
  · rintro ⟨_, _, _, _, _, rfl⟩
    rfl

theorem candidateOfDeclarator?_eq_some {node : Node} {candidate : Candidate} :
    candidateOfDeclarator? node = some candidate ↔
      ∃ nameSpan nameParts annotation function value,
        node = .mk .declarator candidate.span
          (.mk (.binding candidate.name) nameSpan nameParts :: annotation ++ [value]) ∧
        function.label.MakesFunction ∧ Node.Parenthesized function value := by
  constructor
  · intro found
    unfold candidateOfDeclarator? at found
    split at found
    · rename_i span parts
      split at found
      · rename_i name nameSpan nameParts value isFirst isLast
        split at found
        · rename_i isFunction
          cases found
          obtain ⟨function, makes, parenthesized⟩ := Node.isFunctionValue_iff.mp isFunction
          obtain ⟨before, rfl⟩ := List.getLast?_eq_some_iff.mp isLast
          cases before with
          | nil =>
              -- A declarator without a value ends with its name, which is no function.
              cases isFirst
              cases isFunction
          | cons head annotation =>
              cases isFirst
              exact ⟨_, _, annotation, function, value, rfl, makes, parenthesized⟩
        · cases found
      · cases found
    · cases found
  · rintro ⟨nameSpan, nameParts, annotation, function, value, rfl, makes, parenthesized⟩
    have isFunction := Node.isFunctionValue_iff.mpr ⟨function, makes, parenthesized⟩
    have isLast : (Node.mk (.binding candidate.name) nameSpan nameParts :: annotation ++
        [value]).getLast? = some value := List.getLast?_concat
    simp only [candidateOfDeclarator?, isLast]
    simp [isFunction]

/-! ## Candidates at positions -/

/-- The candidates that a list of statements declares, with their positions. -/
def located (statements : List Node) : List (Position × Candidate) :=
  statements.zipIdx.flatMap fun (statement, index) =>
    (slots statement).zipIdx.filterMap fun (slot, place) =>
      slot.map fun candidate => (toLex (index, place), candidate)

theorem map_snd_located (statements : List Node) :
    (located statements).map (·.2) = statements.flatMap candidates := by
  have inStatement : ∀ (index : ℕ) (statement : Node),
      ((slots statement).zipIdx.filterMap fun (slot, place) =>
        slot.map fun candidate => ((toLex (index, place) : Position), candidate)).map (·.2) =
      candidates statement := by
    intro index statement
    rw [candidates_eq_slots, List.map_filterMap]
    conv_rhs => rw [← List.zipIdx_map_fst 0 (slots statement), List.filterMap_map]
    congr 1
    funext ⟨slot, place⟩
    cases slot <;> rfl
  unfold located
  rw [List.map_flatMap]
  simp only [inStatement]
  conv_rhs => rw [← List.zipIdx_map_fst 0 statements, List.flatMap_map]

theorem zipIdx_sorted {α : Type} (items : List α) : items.zipIdx.Pairwise (·.2 < ·.2) := by
  have sorted : (items.zipIdx.map (·.2)).Pairwise (· < ·) := by
    rw [List.zipIdx_map_snd]
    exact List.pairwise_lt_range'
  exact List.pairwise_map.mp sorted

/-- Candidates come in the order of their positions. -/
theorem located_sorted (statements : List Node) :
    (located statements).Pairwise (·.1 < ·.1) := by
  unfold located
  rw [List.pairwise_flatMap]
  constructor
  · rintro ⟨statement, index⟩ _
    rw [List.pairwise_filterMap]
    refine (zipIdx_sorted (slots statement)).imp ?_
    rintro ⟨firstSlot, firstPlace⟩ ⟨secondSlot, secondPlace⟩ before first isFirst second isSecond
    obtain ⟨_, _, rfl⟩ := Option.map_eq_some_iff.mp isFirst
    obtain ⟨_, _, rfl⟩ := Option.map_eq_some_iff.mp isSecond
    exact Prod.Lex.right _ before
  · refine (zipIdx_sorted statements).imp ?_
    rintro ⟨_, firstIndex⟩ ⟨_, secondIndex⟩ before first isFirst second isSecond
    obtain ⟨_, _, found⟩ := List.mem_filterMap.mp isFirst
    obtain ⟨_, _, rfl⟩ := Option.map_eq_some_iff.mp found
    obtain ⟨_, _, found⟩ := List.mem_filterMap.mp isSecond
    obtain ⟨_, _, rfl⟩ := Option.map_eq_some_iff.mp found
    exact Prod.Lex.left _ _ before

/-- The place of a candidate among the slots of a statement, as a declaration. -/
theorem slot_eq_some {statements : List Node} {index place : ℕ} {candidate : Candidate} :
    (∃ statement, statements[index]? = some statement ∧
        (slots statement)[place]? = some (some candidate)) ↔
      DeclaresAt statements (toLex (index, place)) candidate.name candidate.span := by
  constructor
  · rintro ⟨statement, atIndex, atPlace⟩
    unfold slots at atPlace
    split at atPlace
    · rename_i keyword outer declarators
      rw [List.getElem?_map] at atPlace
      obtain ⟨declarator, isDeclarator, isCandidate⟩ := Option.map_eq_some_iff.mp atPlace
      obtain ⟨_, _, _, _, _, rfl, makes, parenthesized⟩ :=
        candidateOfDeclarator?_eq_some.mp isCandidate
      exact .ofDeclarator atIndex isDeclarator makes parenthesized
    · rw [List.getElem?_singleton] at atPlace
      split at atPlace
      · rename_i isZero
        subst isZero
        rw [Option.some.injEq, Option.map_eq_some_iff] at atPlace
        obtain ⟨⟨name, function, body⟩, defined, rfl⟩ := atPlace
        unfold Node.definedFunction? at defined
        split at defined
        · obtain ⟨_, isBody, same⟩ := Option.map_eq_some_iff.mp defined
          obtain ⟨_, _, _, _, _, rfl⟩ := functionBody?_eq_some.mp isBody
          cases same
          exact .ofFunction atIndex
        · cases defined
      · cases atPlace
  · intro declares
    generalize same : (toLex (index, place) : Position) = position at declares
    cases declares with
    | ofFunction atIndex =>
        obtain ⟨rfl, rfl⟩ := Prod.mk.inj (toLex.injective same)
        exact ⟨_, atIndex, by simp [slots, Node.definedFunction?, Node.functionBody?, Node.span]⟩
    | ofDeclarator atIndex isDeclarator makes parenthesized =>
        obtain ⟨rfl, rfl⟩ := Prod.mk.inj (toLex.injective same)
        refine ⟨_, atIndex, ?_⟩
        rw [slots, List.getElem?_map, isDeclarator, Option.map_some]
        exact congrArg some (candidateOfDeclarator?_eq_some.mpr
          ⟨_, _, _, _, _, rfl, makes, parenthesized⟩)

/-- At a position a name is declared once. -/
theorem DeclaresAt.span_unique {statements : List Node} {position : Position} {name : String}
    {span other : Span} (one : DeclaresAt statements position name span)
    (again : DeclaresAt statements position name other) : span = other := by
  obtain ⟨⟨index, place⟩, rfl⟩ := toLex.surjective position
  obtain ⟨_, atIndex, atPlace⟩ := (@slot_eq_some statements index place ⟨name, span⟩).mpr one
  obtain ⟨_, sameIndex, samePlace⟩ := (@slot_eq_some statements index place ⟨name, other⟩).mpr again
  cases atIndex.symm.trans sameIndex
  cases atPlace.symm.trans samePlace
  rfl

/-- **The located candidates are the declarations of the statements.** -/
theorem mem_located {statements : List Node} {position : Position} {candidate : Candidate} :
    (position, candidate) ∈ located statements ↔
      DeclaresAt statements position candidate.name candidate.span := by
  obtain ⟨⟨index, place⟩, rfl⟩ := toLex.surjective position
  rw [← slot_eq_some]
  simp only [located, List.mem_flatMap, List.mem_filterMap, Option.map_eq_some_iff,
    Prod.mk.injEq, Prod.exists, List.mem_zipIdx_iff_getElem?]
  constructor
  · rintro ⟨statement, _, atIndex, slot, _, atPlace, _, rfl, same, rfl⟩
    obtain ⟨rfl, rfl⟩ := Prod.mk.inj (toLex.injective same)
    exact ⟨statement, atIndex, atPlace⟩
  · rintro ⟨statement, atIndex, atPlace⟩
    exact ⟨statement, index, atIndex, _, place, atPlace, candidate, rfl, rfl, rfl⟩

/-! ## The first of each name -/

section KeepFirst

variable {α : Type} (key : α → String)

/-- The elements of a list without those whose key comes up before. -/
def keepFirst : List α → List α
  | [] => []
  | first :: rest => first :: (keepFirst rest).filter (key · != key first)

theorem keepFirst_sublist : ∀ items : List α, (keepFirst key items).Sublist items
  | [] => .slnil
  | first :: rest => ((List.filter_sublist).trans (keepFirst_sublist rest)).cons_cons first

/-- No key is kept twice. -/
theorem keepFirst_distinct : ∀ items : List α, ((keepFirst key items).map key).Nodup
  | [] => List.nodup_nil
  | first :: rest => by
      rw [keepFirst, List.map_cons, List.nodup_cons]
      constructor
      · intro member
        obtain ⟨other, kept, same⟩ := List.mem_map.mp member
        have differs := (List.mem_filter.mp kept).2
        simp [same] at differs
      · exact (keepFirst_distinct rest).sublist (List.filter_sublist.map key)

/-- Of a list in strict order the first element with each key is kept. -/
theorem mem_keepFirst {β : Type} [PartialOrder β] (order : α → β) :
    ∀ {items : List α}, items.Pairwise (order · < order ·) → ∀ {item : α},
      item ∈ keepFirst key items ↔
        item ∈ items ∧ ∀ other ∈ items, key other = key item → order item ≤ order other
  | [], _, item => by simp [keepFirst]
  | first :: rest, sorted, item => by
      obtain ⟨firstBelow, restSorted⟩ := List.pairwise_cons.mp sorted
      rw [keepFirst, List.mem_cons, List.mem_filter, mem_keepFirst order restSorted, bne_iff_ne]
      constructor
      · rintro (rfl | ⟨⟨member, least⟩, differs⟩)
        · refine ⟨List.mem_cons_self, fun other isMember _ => ?_⟩
          rcases List.mem_cons.mp isMember with rfl | inRest
          · exact le_rfl
          · exact (firstBelow other inRest).le
        · refine ⟨List.mem_cons_of_mem _ member, fun other isMember same => ?_⟩
          rcases List.mem_cons.mp isMember with rfl | inRest
          · exact absurd same.symm differs
          · exact least other inRest same
      · rintro ⟨isMember, least⟩
        rcases List.mem_cons.mp isMember with rfl | inRest
        · exact .inl rfl
        · refine .inr
            ⟨⟨inRest, fun other member => least other (List.mem_cons_of_mem _ member)⟩, ?_⟩
          intro same
          exact absurd (least first List.mem_cons_self same.symm) (firstBelow item inRest).not_ge

end KeepFirst

/-- The first candidates of a located list are those of the list without positions. -/
theorem firstOfEachName_map {α : Type} (toCandidate : α → Candidate) :
    ∀ items : List α, firstOfEachName (items.map toCandidate) =
      (keepFirst (fun item => (toCandidate item).name) items).map toCandidate
  | [] => rfl
  | first :: rest => by
      have restSame := firstOfEachName_map toCandidate rest
      unfold firstOfEachName at restSame ⊢
      rw [List.map_cons, List.foldr_cons, restSame, keepFirst, List.map_cons, List.filter_map]
      rfl

end Invocation

end SampleMethods
