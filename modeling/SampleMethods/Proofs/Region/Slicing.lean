import SampleMethods.Proofs.Region.Marker
import SampleMethods.Proofs.Text.Slice

/-!
# Tags as slices of the bytes of a line

A tag may be read from the bytes of its line, by two searches and a slice at what each of them
finds. No slice parts a character, whatever characters the line has, and the tag is the one
that the characters give (`sliceTag_eq`).
-/

set_option autoImplicit false

namespace SampleMethods.Marker

/-- The word in front of the first bracket of a text, read from the bytes of the text. -/
def sliceWord (text : String) : Except Text.Parted (Option String) :=
  match Text.findBytes? "]" text with
  | none => return none
  | some stop => do
    let word := Text.trim (← Text.sliceTo text stop).toList
    return if word.isEmpty || word.any Text.isBlank then none else some (String.ofList word)

/-- The tag behind an opening on a line, read from the bytes of the line: each search gives an
offset, at which the line is sliced. -/
def sliceTag (opening line : String) : Except Text.Parted (Option String) :=
  let comment := Text.trimStart line.toList
  if isComment comment then
    match Text.findBytes? opening (String.ofList comment) with
    | none => return none
    | some offset => do
      let behind ← Text.sliceFrom (String.ofList comment) (offset + opening.utf8ByteSize)
      sliceWord behind
  else
    return none

theorem sliceWord_eq (text : List Char) :
    sliceWord (String.ofList text) = .ok ((do
      let word := Text.trim (← Text.beforeFirst? ']' text)
      if word.isEmpty || word.any Text.isBlank then none else some word).map String.ofList) := by
  have plain : Text.IsPlain [']'] := by decide
  rw [sliceWord]
  cases found : Text.beforeFirst? ']' text with
  | none =>
      have notFound : Text.findBytes? "]" (String.ofList text) = none :=
        Text.findBytes?_of_beforeFirst?_eq_none plain found
      rw [notFound]
      rfl
  | some padded =>
      obtain ⟨stop, isStop, sliced⟩ := Text.sliceTo_of_beforeFirst? plain found
      change Text.findBytes? "]" _ = _ at isStop
      rw [isStop]
      dsimp only
      rw [sliced]
      simp only [bind, Except.bind, Option.bind, String.toList_ofList]
      split_ifs <;> rfl

theorem isPlain_opening (edge : Edge) : Text.IsPlain edge.opening := by
  cases edge <;> decide

theorem opening_ne_nil (edge : Edge) : edge.opening ≠ [] := by
  cases edge <;> decide

/-- **Whatever characters the line has, no slice parts one of them**, and what is read from the
bytes is what is read from the characters. -/
theorem sliceTag_eq (edge : Edge) (line : String) :
    sliceTag (String.ofList edge.opening) line =
      .ok ((tag? edge.opening line.toList).map String.ofList) := by
  have plain := isPlain_opening edge
  have nonempty := opening_ne_nil edge
  rw [sliceTag, tag?]
  cases isComment (Text.trimStart line.toList) with
  | false => rfl
  | true =>
      cases found : Text.behindFirst? edge.opening (Text.trimStart line.toList) with
      | none =>
          have notFound := Text.findBytes?_of_behindFirst?_eq_none plain nonempty found
          simp only [if_true, notFound]
          rfl
      | some behind =>
          obtain ⟨offset, isOffset, sliced⟩ := Text.sliceFrom_of_behindFirst? plain nonempty found
          simp only [if_true, isOffset, sliced]
          exact sliceWord_eq behind

/-- **Reading a tag slices no line between the bytes of a character**, and gives a tag just if the
line falls into the pieces for it. -/
theorem sliceTag_spelled (edge : Edge) (line : String) :
    sliceTag (String.ofList edge.opening) line =
        .ok ((tag? edge.opening line.toList).map String.ofList) ∧
      ∀ tag, tag? edge.opening line.toList = some tag ↔
        ∃ parts : Parts, parts.Spell edge.opening tag line.toList :=
  ⟨sliceTag_eq edge line, fun _ => tag?_eq_some_iff_spell⟩

end SampleMethods.Marker
