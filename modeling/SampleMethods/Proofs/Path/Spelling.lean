import Mathlib.Logic.Relation
import SampleMethods.Proofs.Path.Rejoining

/-!
# Spellings of paths

A path can be written with slashes and steps `.` that make no difference. Dropping them one
by one leaves what its components are written as (`dropsTo_ofComponents`), so two paths have
the same components exactly when they come to the same text (`components_eq_iff_isRespelling`).

A path therefore lies under a base exactly when it is another spelling of the base with more
behind it, and behind a slash (`liesUnder_iff_exists_rest`). A name that goes on where the last
name of the base ends is another name (`not_liesUnder_of_longerName`).
-/

set_option autoImplicit false

namespace SampleMethods.Path

open Text (Bytes point slash)

variable {path other base : Path}

/-! ## Dropping what makes no difference -/

/-- One path is written as the other one, but for a slash or a step `.` that makes no
difference. -/
inductive Drops : Path → Path → Prop
  /-- A repeated slash. -/
  | slash (front behind : Bytes) :
      Drops ⟨front ++ slash :: slash :: behind⟩ ⟨front ++ slash :: behind⟩
  /-- A step `.` between slashes. -/
  | here (front behind : Bytes) :
      Drops ⟨front ++ slash :: point :: slash :: behind⟩ ⟨front ++ slash :: behind⟩
  /-- A step `.` at the end, behind a slash. -/
  | lastHere (front : Bytes) : Drops ⟨front ++ [slash, point]⟩ ⟨front ++ [slash]⟩
  /-- A slash at the end. -/
  | lastSlash {front : Bytes} (nonempty : front ≠ []) : Drops ⟨front ++ [slash]⟩ ⟨front⟩

/-- One path comes to the other one when some of what makes no difference is dropped. -/
abbrev DropsTo (path other : Path) : Prop :=
  Relation.ReflTransGen Drops path other

/-- The two paths come to the same text when what makes no difference is dropped. -/
def IsRespelling (path other : Path) : Prop :=
  Relation.Join DropsTo path other

theorem componentsBehind_slash (text : Bytes) :
    componentsBehind (slash :: text) = componentsBehind text := rfl

theorem componentsBehind_here (text : Bytes) :
    componentsBehind (point :: slash :: text) = componentsBehind text := by
  have isCut : Text.cutAt slash (point :: slash :: text) = [point] :: Text.cutAt slash text :=
    Text.cutAt_append_cons [point] text
  rw [componentsBehind, isCut]
  rfl

/-- **Nothing that is dropped makes a difference.** -/
theorem Drops.components_eq (drops : Drops path other) : path.components = other.components := by
  cases drops with
  | slash front behind =>
      rw [components_append_slash, componentsBehind_slash, ← components_append_slash]
  | here front behind =>
      rw [components_append_slash, componentsBehind_here, ← components_append_slash]
  | lastHere front =>
      rw [components_append_slash]
      exact List.append_nil _
  | lastSlash nonempty => exact components_append_lastSlash nonempty

theorem components_eq_of_dropsTo (drops : path.DropsTo other) :
    path.components = other.components := by
  induction drops with
  | refl => rfl
  | tail _ drop ih => exact ih.trans drop.components_eq

/-! ## What components are written as -/

/-- What a component is written as. The root is nothing in front of a slash. -/
def Component.text : Component → Bytes
  | root => []
  | here => [point]
  | up => [point, point]
  | name text => text

theorem Step.component_text (step : Step) : step.component.text = step.text := by
  rw [Step.component]
  split_ifs with here up
  · exact (beq_iff_eq.mp here).symm
  · exact (beq_iff_eq.mp up).symm
  · rfl

/-- The path that is written with the components behind a text, each behind one slash. Behind
nothing, a slash is left when there are none. -/
def writeBehind (front : Bytes) : List Component → Path
  | [] => if front = [] then ⟨[slash]⟩ else ⟨front⟩
  | components => ⟨front ++ components.flatMap fun component => slash :: component.text⟩

theorem writeBehind_nil {front : Bytes} (nonempty : front ≠ []) :
    writeBehind front [] = ⟨front⟩ := by
  rw [writeBehind, if_neg nonempty]

theorem writeBehind_of_ne_nil {front : Bytes} (nonempty : front ≠ [])
    (components : List Component) :
    writeBehind front components =
      ⟨front ++ components.flatMap fun component => slash :: component.text⟩ := by
  cases components with
  | nil => rw [writeBehind_nil nonempty, List.flatMap_nil, List.append_nil]
  | cons component components => rfl

/-- A component is written behind a slash, and the others behind it. -/
theorem writeBehind_cons (front : Bytes) (component : Component)
    (components : List Component) :
    writeBehind front (component :: components) =
      writeBehind (front ++ slash :: component.text) components := by
  rw [writeBehind_of_ne_nil (List.append_ne_nil_of_right_ne_nil front (List.cons_ne_nil _ _))]
  simp [writeBehind]

/-- The path that is written with the components and nothing else. -/
def ofComponents : List Component → Path
  | [] => ⟨[]⟩
  | first :: others => writeBehind first.text others

theorem dropsTo_lastSlash (front : Bytes) :
    DropsTo ⟨front ++ [slash]⟩ (writeBehind front []) := by
  rw [writeBehind]
  split_ifs with isEmpty
  · rw [isEmpty]
    exact .refl
  · exact .single (.lastSlash isEmpty)

/-- A piece behind a slash that makes no difference is dropped. -/
theorem dropsTo_of_silent {piece : Bytes} (silent : (Step.behindSlash piece).counts = false)
    (front : Bytes) (pieces : List Bytes) :
    DropsTo ⟨front ++ slash :: Text.join [slash] (piece :: pieces)⟩
      ⟨front ++ slash :: Text.join [slash] pieces⟩ := by
  have isSilent : piece = [] ∨ piece = [point] := by
    simpa [Step.behindSlash, or_iff_not_imp_left] using silent
  cases pieces with
  | nil =>
      rcases isSilent with rfl | rfl
      · exact .refl
      · exact .single (.lastHere front)
  | cons second others =>
      rw [Text.join_cons (List.cons_ne_nil second others)]
      rcases isSilent with rfl | rfl
      · exact .single (.slash front _)
      · exact .single (.here front _)

/-- **What stands behind a slash drops to its components.** The induction is on the pieces: one
that makes no difference is dropped, and any other one goes to the front of the rest. -/
theorem dropsTo_writeBehind (front : Bytes) (pieces : List Bytes) :
    DropsTo ⟨front ++ slash :: Text.join [slash] pieces⟩
      (writeBehind front (componentsOf (pieces.map Step.behindSlash))) := by
  induction pieces generalizing front with
  | nil => exact dropsTo_lastSlash front
  | cons piece pieces ih =>
      rw [List.map_cons]
      cases counts : (Step.behindSlash piece).counts with
      | false =>
          rw [componentsOf_cons_of_silent counts]
          exact (dropsTo_of_silent counts front pieces).trans (ih front)
      | true =>
          rw [componentsOf_cons_of_counts counts, writeBehind_cons, Step.component_text]
          have nonempty : front ++ slash :: piece ≠ [] :=
            List.append_ne_nil_of_right_ne_nil front (List.cons_ne_nil slash piece)
          by_cases isLast : pieces = []
          · subst isLast
            exact writeBehind_nil nonempty ▸ .refl
          · have behindPiece := ih (front ++ slash :: piece)
            rw [List.append_assoc] at behindPiece
            rw [Text.join_cons isLast, List.append_assoc]
            exact behindPiece

/-- **Every path drops to what its components are written as.** -/
theorem dropsTo_ofComponents (path : Path) : path.DropsTo (ofComponents path.components) := by
  cases absolute : path.isAbsolute with
  | true =>
      have behindRoot := dropsTo_writeBehind [] (Text.cutAt slash path.text.tail)
      rw [Text.join_cutAt, List.nil_append, ← text_of_isAbsolute absolute,
        ← steps_of_isAbsolute absolute] at behindRoot
      rw [components_eq, absolute]
      exact behindRoot
  | false =>
      obtain ⟨first, others, isCut⟩ :=
        List.exists_cons_of_ne_nil (Text.cutAt_ne_nil slash path.text)
      by_cases noFirst : first = []
      · have isEmpty : path = ⟨[]⟩ :=
          congrArg Path.mk (text_eq_nil_of_noFirst absolute (noFirst ▸ isCut))
        rw [isEmpty]
        exact .refl
      · have counts : (!first.isEmpty) = true := by simpa using noFirst
        have isPath : path = ⟨Text.join [slash] (first :: others)⟩ := by
          rw [← isCut, Text.join_cutAt]
        have isComponents : ofComponents path.components =
            writeBehind first (componentsOf (others.map Step.behindSlash)) := by
          rw [components_eq, absolute, steps_of_relative absolute isCut, counts,
            componentsOf_cons_of_counts rfl]
          exact congrArg (writeBehind · _) (Step.component_text ⟨first, true⟩)
        rw [isComponents, isPath]
        by_cases isLast : others = []
        · subst isLast
          exact writeBehind_nil noFirst ▸ .refl
        · rw [Text.join_cons isLast, List.append_assoc]
          exact dropsTo_writeBehind first others

/-! ## Equal components -/

/-- **Two paths have the same components exactly when they come to the same text.** -/
theorem components_eq_iff_isRespelling :
    path.components = other.components ↔ path.IsRespelling other := by
  constructor
  · intro same
    exact ⟨_, dropsTo_ofComponents path, same ▸ dropsTo_ofComponents other⟩
  · rintro ⟨common, pathDrops, otherDrops⟩
    rw [components_eq_of_dropsTo pathDrops, components_eq_of_dropsTo otherDrops]

/-- **A path lies under a base exactly when it is another spelling of the base with more behind
it**, which is behind a slash unless the base is empty. -/
theorem liesUnder_iff_exists_rest :
    path.LiesUnder base ↔ ∃ rest, path.IsRespelling ⟨base.stem ++ rest⟩ := by
  rcases base.empty_or_hasText with rfl | hasText
  · exact ⟨fun _ => ⟨path.text, components_eq_iff_isRespelling.mp rfl⟩, fun _ => List.nil_prefix⟩
  constructor
  · intro liesUnder
    obtain ⟨left, isLeft⟩ := Option.isSome_iff_exists.mp (stripPrefix?_isSome_iff.mpr liesUnder)
    obtain ⟨inside, parts⟩ := startsInside_of_stripPrefix? hasText isLeft
    refine ⟨left.text, components_eq_iff_isRespelling.mp ?_⟩
    rw [← join_of_relative inside.1, components_join inside, parts]
  · rintro ⟨rest, respelled⟩
    rw [LiesUnder, components_eq_iff_isRespelling.mpr respelled, components_behind_stem hasText]
    exact List.prefix_append _ _

/-! ## Names that go on -/

/-- A piece of more than one byte counts wherever it stands. -/
theorem Step.counts_append {front : Bytes} (nonempty : front ≠ []) (absolute : Bool)
    (byte : UInt8) (rest : Bytes) :
    Step.atStart absolute (front ++ byte :: rest) = ⟨front ++ byte :: rest, true⟩ ∧
      Step.behindSlash (front ++ byte :: rest) = ⟨front ++ byte :: rest, true⟩ := by
  obtain ⟨first, others, rfl⟩ := List.exists_cons_of_ne_nil nonempty
  cases absolute <;> simp [Step.atStart, Step.behindSlash]

/-- **Where the text of a path goes on, and not with a slash, its last step goes on.** -/
theorem exists_steps_of_longer {front : List Step} {last : Step}
    (isSteps : base.steps = front ++ [last]) (counts : last.counts = true) {byte : UInt8}
    (noSlash : byte ≠ slash) {rest : Bytes}
    (isText : path.text = base.text ++ byte :: rest) :
    path.isAbsolute = base.isAbsolute ∧ ∃ more others,
      path.steps = front ++ ⟨last.text ++ byte :: more, true⟩ :: others := by
  have isLast : last ∈ base.steps := by simp [isSteps]
  have lastText : last.text ≠ [] := text_ne_nil_of_counts isLast counts
  have hasText : base.text ≠ [] := by
    rcases base.empty_or_hasText with rfl | hasText
    · cases List.mem_singleton.mp isLast
      exact absurd rfl lastText
    · exact hasText
  have sameStart : path.isAbsolute = base.isAbsolute := by
    rw [isAbsolute, isAbsolute, isText, List.head?_append_of_ne_nil _ hasText]
  obtain ⟨more, pieces, isBehind⟩ := Text.exists_cutAt_cons noSlash rest
  have isFront := (steps_map_text base).symm
  rw [isSteps, List.map_append, List.map_singleton] at isFront
  have isCut : Text.cutAt slash (if path.isAbsolute then path.text.tail else path.text) =
      front.map (·.text) ++ (last.text ++ byte :: more) :: pieces := by
    rw [← Text.cutAt_append isFront isBehind, sameStart, isText]
    cases base.isAbsolute with
    | true => exact congrArg (Text.cutAt slash) (List.tail_append_of_ne_nil hasText)
    | false => rfl
  obtain ⟨longerFirst, longerBehind⟩ :=
    Step.counts_append lastText path.isAbsolute byte more
  refine ⟨sameStart, more, pieces.map Step.behindSlash, ?_⟩
  cases front with
  | nil => rw [steps_of_cutAt isCut, longerFirst, List.nil_append]
  | cons first others =>
      rw [List.map_cons, List.cons_append] at isFront isCut
      have sameSteps := (steps_of_cutAt isFront).symm.trans isSteps
      rw [List.map_append, List.cons_append, List.cons.injEq] at sameSteps
      obtain ⟨isFirst, isOthers⟩ := sameSteps
      have areOthers := (List.append_inj' isOthers rfl).1
      rw [steps_of_cutAt isCut, sameStart, isFirst, List.map_append, areOthers, List.map_cons,
        longerBehind, List.cons_append]

/-- **A name that goes on where the last name of the base ends is another name.** -/
theorem not_liesUnder_of_longerName {front : List Step} {last : Step}
    (isSteps : base.steps = front ++ [last]) (counts : last.counts = true) {byte : UInt8}
    (noSlash : byte ≠ slash) {rest : Bytes}
    (isText : path.text = base.text ++ byte :: rest) : ¬path.LiesUnder base := by
  obtain ⟨sameStart, more, others, isLonger⟩ :=
    exists_steps_of_longer isSteps counts noSlash isText
  intro liesUnder
  rw [LiesUnder, components_eq, components_eq, sameStart, isSteps, isLonger, componentsOf_append,
    componentsOf_append, List.prefix_append_right_inj, List.prefix_append_right_inj,
    componentsOf_cons_of_counts counts, componentsOf_cons_of_counts rfl,
    List.cons_prefix_cons] at liesUnder
  have sameText := congrArg Component.text liesUnder.1
  rw [Step.component_text, Step.component_text] at sameText
  simp at sameText

end SampleMethods.Path
