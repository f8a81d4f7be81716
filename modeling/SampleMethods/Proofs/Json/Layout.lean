import SampleMethods.Proofs.Json.Brackets

/-!
# The layout of JSON text

A value is written on one line or over many lines, and in both layouts a list or an
object is its parts in the layout of its inside, with the blanks of the layout between
them (`toList_write_array`, `toList_write_object`). So what is proved about a layout holds
for both.
-/

set_option autoImplicit false

namespace SampleMethods.Json

open Reader

/-- How a value is written. -/
inductive Layout where
  | onOneLine
  | overLines (level : ℕ)

namespace Layout

/-- The text of a value. -/
def write : Layout → Json → String
  | onOneLine => compact
  | overLines level => prettyAt level

/-- How the parts of a value are written. -/
def inner : Layout → Layout
  | onOneLine => onOneLine
  | overLines level => overLines (level + 1)

theorem areBlank_newLine (level : ℕ) : AreBlank (newLine level).toList := by
  intro character member
  rw [newLine, String.toList_append] at member
  rcases List.mem_append.mp member with isFeed | isIndent
  · rw [List.mem_singleton.mp isFeed]
    rfl
  · rw [String.toList_ofList] at isIndent
    rw [List.eq_of_mem_replicate isIndent]
    rfl

/-- The blanks between the parts of a value. -/
def spacing : Layout → Spacing
  | onOneLine => ⟨[], [], [], areBlank_nil, areBlank_nil, areBlank_nil⟩
  | overLines level =>
    { front := (newLine (level + 1)).toList
      back := (newLine level).toList
      gap := [' ']
      frontBlank := areBlank_newLine (level + 1)
      backBlank := areBlank_newLine level
      gapBlank := fun _ isGap => List.mem_singleton.mp isGap ▸ rfl }

/-! ## Lists and objects -/

/-- Parts with commas and blanks between them, and the closing bracket. -/
theorem intercalate_eq_behindFirst (spacing : Spacing) (closing : Char) (part : List Char)
    (parts : List (List Char)) :
    List.intercalate (',' :: spacing.front) (part :: parts) ++ (spacing.back ++ [closing]) =
      part ++ spacing.behindFirst closing parts := by
  induction parts generalizing part with
  | nil => simp [List.intercalate, Spacing.behindFirst]
  | cons next parts ih =>
      have step : List.intercalate (',' :: spacing.front) (part :: next :: parts) =
          part ++ (',' :: spacing.front ++
            List.intercalate (',' :: spacing.front) (next :: parts)) := by
        simp [List.intercalate]
      rw [step, List.append_assoc, List.append_assoc, ih, Spacing.behindFirst]
      rfl

/-- What is written between two brackets on one line. -/
theorem toList_compact (opening closing : Char) (parts : List String) :
    (String.singleton opening ++ ",".intercalate parts ++ String.singleton closing).toList =
      opening :: onOneLine.spacing.behindOpening closing (parts.map String.toList) := by
  cases parts with
  | nil => simp [Spacing.behindOpening]
  | cons part parts =>
      have step := intercalate_eq_behindFirst onOneLine.spacing closing part.toList
        (parts.map String.toList)
      simp only [String.toList_append, String.toList_intercalate, String.toList_singleton,
        List.map_cons, Spacing.behindOpening]
      simpa [spacing] using step

/-- What is written between two brackets over many lines. -/
theorem toList_laidOut (level : ℕ) (opening closing : Char) (parts : List String) :
    (laidOut level (String.singleton opening) (String.singleton closing) parts).toList =
      opening :: (overLines level).spacing.behindOpening closing (parts.map String.toList) := by
  cases parts with
  | nil => simp [laidOut, Spacing.behindOpening]
  | cons part parts =>
      have step := intercalate_eq_behindFirst (overLines level).spacing closing part.toList
        (parts.map String.toList)
      simp only [laidOut, List.isEmpty_cons, Bool.false_eq_true, if_false, String.toList_append,
        String.toList_intercalate, String.toList_singleton, List.map_cons, Spacing.behindOpening]
      simpa [spacing] using step

theorem compactItems_eq_map (items : List Json) : compactItems items = items.map compact := by
  induction items with
  | nil => rfl
  | cons item items ih => rw [compactItems, ih, List.map_cons]

theorem compactMembers_eq_map (members : List (String × Json)) :
    compactMembers members = members.map fun member => quoted member.1 ++ ":" ++ member.2.compact := by
  induction members with
  | nil => rfl
  | cons member members ih =>
      obtain ⟨name, value⟩ := member
      rw [compactMembers, ih, List.map_cons]

theorem prettyItems_eq_map (level : ℕ) (items : List Json) :
    prettyItems level items = items.map (prettyAt level) := by
  induction items with
  | nil => rfl
  | cons item items ih => rw [prettyItems, ih, List.map_cons]

theorem prettyMembers_eq_map (level : ℕ) (members : List (String × Json)) :
    prettyMembers level members =
      members.map fun member => quoted member.1 ++ ": " ++ prettyAt level member.2 := by
  induction members with
  | nil => rfl
  | cons member members ih =>
      obtain ⟨name, value⟩ := member
      rw [prettyMembers, ih, List.map_cons]

variable (layout : Layout)

/-- **A list is its elements in the layout of its inside.** -/
theorem toList_write_array (items : List Json) :
    (layout.write (.array items)).toList =
      '[' :: layout.spacing.behindOpening ']'
        (items.map fun item => (layout.inner.write item).toList) := by
  cases layout with
  | onOneLine =>
      refine (toList_compact '[' ']' (compactItems items)).trans ?_
      rw [compactItems_eq_map, List.map_map]
      rfl
  | overLines level =>
      refine (toList_laidOut level '[' ']' (prettyItems (level + 1) items)).trans ?_
      rw [prettyItems_eq_map, List.map_map]
      rfl

/-- **An object is its members in the layout of its inside.** -/
theorem toList_write_object (members : List (String × Json)) :
    (layout.write (.object members)).toList =
      '\x7b' :: layout.spacing.behindOpening '\x7d'
        (members.map fun member =>
          layout.spacing.member member.1 (layout.inner.write member.2).toList) := by
  cases layout with
  | onOneLine =>
      refine (toList_compact '\x7b' '\x7d' (compactMembers members)).trans ?_
      rw [compactMembers_eq_map, List.map_map]
      simp [Function.comp_def, Spacing.member, spacing, inner, write]
  | overLines level =>
      refine (toList_laidOut level '\x7b' '\x7d' (prettyMembers (level + 1) members)).trans ?_
      rw [prettyMembers_eq_map, List.map_map]
      simp [Function.comp_def, Spacing.member, spacing, inner, write]

/-- **A list is read in every layout in which its elements are.** -/
theorem takes_write_array {α : Type} {levels : ℕ} {decoder : Decoder α} {values : List α}
    {encode : α → Json}
    (each : ∀ value ∈ values,
      Takes levels decoder.reader (layout.inner.write (encode value)).toList value) :
    Takes (levels + 1) (Decoder.list decoder).reader
      (layout.write (.array (values.map encode))).toList values := by
  rw [toList_write_array, List.map_map]
  exact Decoder.takes_list layout.spacing each

/-! ## Scalars -/

theorem write_string (text : String) : layout.write (.string text) = quoted text := by
  cases layout with
  | onOneLine => rfl
  | overLines level => rfl

theorem toList_write_natural (number : ℕ) :
    (layout.write (.number (.natural number))).toList = Nat.toDigits 10 number := by
  have digits : (toString number).toList = Nat.toDigits 10 number := by
    simp
  cases layout with
  | onOneLine => exact digits
  | overLines level => exact digits

/-! ## Values on one line -/

theorem onOneLine_behindFirst {closing : Char} (isClosing : OnOneLine [closing])
    {parts : List (List Char)} (each : ∀ part ∈ parts, OnOneLine part) :
    OnOneLine (onOneLine.spacing.behindFirst closing parts) := by
  induction parts with
  | nil => exact isClosing
  | cons part parts ih =>
      obtain ⟨here, others⟩ := List.forall_mem_cons.mp each
      have comma : OnOneLine [','] := onOneLine_singleton (by decide)
      exact comma.append (here.append (ih others))

theorem onOneLine_behindOpening {closing : Char} (isClosing : OnOneLine [closing])
    {parts : List (List Char)} (each : ∀ part ∈ parts, OnOneLine part) :
    OnOneLine (onOneLine.spacing.behindOpening closing parts) := by
  cases parts with
  | nil => exact isClosing
  | cons part parts =>
      obtain ⟨here, others⟩ := List.forall_mem_cons.mp each
      exact here.append (onOneLine_behindFirst isClosing others)

/-- A list whose elements are on one line is on one line. -/
theorem onOneLine_write_array {items : List Json}
    (each : ∀ item ∈ items, OnOneLine (onOneLine.write item).toList) :
    OnOneLine (onOneLine.write (.array items)).toList := by
  have opening : OnOneLine ['['] := onOneLine_singleton (by decide)
  have closing : OnOneLine [']'] := onOneLine_singleton (by decide)
  rw [toList_write_array]
  refine opening.append (onOneLine_behindOpening closing fun part member => ?_)
  obtain ⟨item, isItem, rfl⟩ := List.mem_map.mp member
  exact each item isItem

/-- An object whose values are on one line is on one line. -/
theorem onOneLine_write_object {members : List (String × Json)}
    (each : ∀ member ∈ members, OnOneLine (onOneLine.write member.2).toList) :
    OnOneLine (onOneLine.write (.object members)).toList := by
  have opening : OnOneLine ['\x7b'] := onOneLine_singleton (by decide)
  have closing : OnOneLine ['\x7d'] := onOneLine_singleton (by decide)
  have colon : OnOneLine [':'] := onOneLine_singleton (by decide)
  rw [toList_write_object]
  refine opening.append (onOneLine_behindOpening closing fun part isPart => ?_)
  obtain ⟨member, isMember, rfl⟩ := List.mem_map.mp isPart
  exact (onOneLine_quoted member.1).append (colon.append (each member isMember))

end Layout

end SampleMethods.Json
