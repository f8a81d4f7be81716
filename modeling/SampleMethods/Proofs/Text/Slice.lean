import Mathlib.Data.List.Infix
import SampleMethods.Proofs.Text.Bytes
import SampleMethods.Proofs.Text.Search

/-!
# Slices of a text at byte offsets

A search may tell the place that it finds by the number of bytes in front of it, and a text may
be sliced at such an offset. A slice that parts the bytes of a character is refused. The bytes
of plain characters stand among those of a text just where the characters stand in the text,
so a search for them finds the offset of their first place (`findBytes?_eq_some_iff`). There no
character is parted: the slices give what is behind the place (`sliceFrom_append`) and what is
in front of it (`sliceTo_append`).
-/

set_option autoImplicit false

namespace SampleMethods.Text

/-! ## Slices -/

/-- A slice of the text at the offset was refused: the offset lies between the bytes of a
character, or beyond the text. -/
structure Parted where
  text : String
  offset : ℕ

/-- The text from an offset on. -/
def sliceFrom (text : String) (offset : ℕ) : Except Parted String :=
  if whole : String.Pos.Raw.IsValid text ⟨offset⟩ then .ok (text.sliceFrom ⟨⟨offset⟩, whole⟩).copy
  else .error ⟨text, offset⟩

/-- The text up to an offset. -/
def sliceTo (text : String) (offset : ℕ) : Except Parted String :=
  if whole : String.Pos.Raw.IsValid text ⟨offset⟩ then .ok (text.sliceTo ⟨⟨offset⟩, whole⟩).copy
  else .error ⟨text, offset⟩

section Slices

variable (front behind : String)

theorem isValid_append : String.Pos.Raw.IsValid (front ++ behind) ⟨front.utf8ByteSize⟩ :=
  String.Pos.Raw.isValid_iff_exists_append.mpr ⟨front, behind, rfl, rfl⟩

theorem splits_append : (⟨⟨front.utf8ByteSize⟩, isValid_append front behind⟩ :
    (front ++ behind).Pos).Splits front behind :=
  ⟨rfl, rfl⟩

theorem sliceFrom_append : sliceFrom (front ++ behind) front.utf8ByteSize = .ok behind := by
  rw [sliceFrom, dif_pos (isValid_append front behind), (splits_append _ _).copy_sliceFrom_eq]

theorem sliceTo_append : sliceTo (front ++ behind) front.utf8ByteSize = .ok front := by
  rw [sliceTo, dif_pos (isValid_append front behind), (splits_append _ _).copy_sliceTo_eq]

end Slices

/-! ## Searches among bytes -/

/-- The number of bytes in front of the first place where a pattern stands. -/
def firstPlace? (pattern bytes : Bytes) : Option ℕ :=
  bytes.tails.findIdx? (pattern.isPrefixOf ·)

/-- The offset of the first place in a text where the bytes of a pattern stand. -/
def findBytes? (pattern text : String) : Option ℕ :=
  firstPlace? (bytes pattern) (bytes text)

theorem bytes_ofList (text : List Char) : bytes (String.ofList text) = encode text := by
  rw [bytes, String.toList_ofList]

theorem length_bytes (text : String) : (bytes text).length = text.utf8ByteSize := by
  rw [← String.ofList_toList (s := text), bytes_ofList, String.utf8ByteSize,
    String.toByteArray_ofList, List.utf8Encode, List.size_toByteArray]
  rfl

section FirstPlace

variable {pattern others front back : Bytes} {first byte : UInt8}

theorem firstPlace?_cons :
    firstPlace? pattern (byte :: back) =
      if pattern <+: byte :: back then some 0 else (firstPlace? pattern back).map (· + 1) := by
  rw [firstPlace?, List.tails_cons, List.findIdx?_cons]
  simp only [List.isPrefixOf_iff_prefix]
  rfl

theorem firstPlace?_nil (nonempty : pattern ≠ []) : firstPlace? pattern [] = none := by
  simp [firstPlace?, List.findIdx?_cons, nonempty]

/-- Bytes that the pattern does not begin with are passed over. -/
theorem firstPlace?_append_of_not_mem (absent : first ∉ front) :
    firstPlace? (first :: others) (front ++ back) =
      (firstPlace? (first :: others) back).map (· + front.length) := by
  induction front with
  | nil => simp
  | cons byte front ih =>
      rw [List.mem_cons, not_or] at absent
      have notHere : ¬first :: others <+: byte :: (front ++ back) := fun isPrefix =>
        absent.1 (List.cons_prefix_cons.mp isPrefix).1
      rw [List.cons_append, firstPlace?_cons, if_neg notHere, ih absent.2, Option.map_map]
      rfl

end FirstPlace

section FindBytes

variable {mark text : List Char}

theorem firstPlace?_bytes_nil (plain : IsPlain mark) (nonempty : mark ≠ []) :
    firstPlace? (encode mark) (encode []) = none := by
  obtain ⟨first, others, rfl⟩ := List.exists_cons_of_ne_nil nonempty
  rw [encode_cons_plain (List.forall_mem_cons.mp plain).1]
  exact firstPlace?_nil (List.cons_ne_nil _ _)

/-- Among the bytes of a text a pattern of plain characters stands at the front, or behind the
first character. -/
theorem firstPlace?_bytes_cons (plain : IsPlain mark) (nonempty : mark ≠ []) (character : Char) :
    firstPlace? (encode mark) (encode (character :: text)) =
      if mark <+: character :: text then some 0
      else (firstPlace? (encode mark) (encode text)).map
        (· + (bytesOf character).length) := by
  obtain ⟨first, others, rfl⟩ := List.exists_cons_of_ne_nil nonempty
  have firstPlain := (List.forall_mem_cons.mp plain).1
  have here : encode (first :: others) <+: encode (character :: text) ↔
      first :: others <+: character :: text := prefix_bytes_iff plain
  by_cases isPlain : character.toNat < 128
  · rw [encode_cons_plain isPlain] at here ⊢
    rw [firstPlace?_cons, bytesOf_plain isPlain]
    simp only [here]
    rfl
  · have long := Nat.le_of_not_lt isPlain
    have notHere : ¬first :: others <+: character :: text := fun isPrefix =>
      isPlain ((List.cons_prefix_cons.mp isPrefix).1 ▸ firstPlain)
    rw [if_neg notHere, encode_cons_plain firstPlain, encode_cons character]
    exact firstPlace?_append_of_not_mem (byteOf_not_mem_bytesOf firstPlain long)

/-- **A search for plain characters finds the offset of their first place.** -/
theorem findBytes?_eq_some_iff (plain : IsPlain mark) (nonempty : mark ≠ []) {offset : ℕ} :
    findBytes? (String.ofList mark) (String.ofList text) = some offset ↔
      ∃ front behind, StandsFirst mark front behind text ∧
        offset = (String.ofList front).utf8ByteSize := by
  simp only [findBytes?, ← length_bytes, bytes_ofList]
  induction text generalizing offset with
  | nil =>
      rw [firstPlace?_bytes_nil plain nonempty]
      simp [standsFirst_nil, nonempty]
  | cons character rest ih =>
      rw [firstPlace?_bytes_cons plain nonempty]
      simp only [standsFirst_cons]
      split_ifs with isHere
      · obtain ⟨behind, cut⟩ := isHere
        constructor
        · rintro ⟨⟩
          exact ⟨[], behind, .inl ⟨rfl, cut.symm⟩, rfl⟩
        · rintro ⟨_, _, ⟨rfl, _⟩ | ⟨notHere, _⟩, rfl⟩
          · rfl
          · exact absurd ⟨behind, cut⟩ notHere
      · simp only [Option.map_eq_some_iff, ih]
        constructor
        · rintro ⟨_, ⟨further, behind, stands, rfl⟩, rfl⟩
          refine ⟨_, behind, .inr ⟨isHere, further, rfl, stands⟩, ?_⟩
          rw [encode_cons, List.length_append, Nat.add_comm]
        · rintro ⟨_, behind, ⟨_, cut⟩ | ⟨_, further, rfl, stands⟩, rfl⟩
          · exact absurd ⟨behind, cut.symm⟩ isHere
          · refine ⟨_, ⟨further, behind, stands, rfl⟩, ?_⟩
            rw [encode_cons, List.length_append, Nat.add_comm]

/-- **Behind the first place of a pattern the bytes of a text can be sliced.** -/
theorem sliceFrom_of_behindFirst? (plain : IsPlain mark) (nonempty : mark ≠ []) {behind : List Char}
    (found : behindFirst? mark text = some behind) :
    ∃ offset, findBytes? (String.ofList mark) (String.ofList text) = some offset ∧
      sliceFrom (String.ofList text) (offset + (String.ofList mark).utf8ByteSize) =
        .ok (String.ofList behind) := by
  obtain ⟨front, stands⟩ := behindFirst?_eq_some_iff.mp found
  refine ⟨_, (findBytes?_eq_some_iff plain nonempty).mpr ⟨front, behind, stands, rfl⟩, ?_⟩
  have whole : String.ofList text = String.ofList (front ++ mark) ++ String.ofList behind := by
    rw [stands.cut, String.ofList_append]
  have size : (String.ofList front).utf8ByteSize + (String.ofList mark).utf8ByteSize =
      (String.ofList (front ++ mark)).utf8ByteSize := by
    rw [String.ofList_append, String.utf8ByteSize_append]
  rw [whole, size]
  exact sliceFrom_append _ _

theorem findBytes?_of_behindFirst?_eq_none (plain : IsPlain mark) (nonempty : mark ≠ [])
    (nothing : behindFirst? mark text = none) :
    findBytes? (String.ofList mark) (String.ofList text) = none := by
  refine Option.eq_none_iff_forall_ne_some.mpr fun offset found => ?_
  obtain ⟨front, behind, stands, _⟩ := (findBytes?_eq_some_iff plain nonempty).mp found
  rw [behindFirst?_eq_some_iff.mpr ⟨front, stands⟩] at nothing
  cases nothing

end FindBytes

section FindCharacter

variable {mark : Char} {text : List Char} (plain : IsPlain [mark])
include plain

/-- **In front of the first place of a character the bytes of a text can be sliced.** -/
theorem sliceTo_of_beforeFirst? {front : List Char} (found : beforeFirst? mark text = some front) :
    ∃ offset, findBytes? (String.ofList [mark]) (String.ofList text) = some offset ∧
      sliceTo (String.ofList text) offset = .ok (String.ofList front) := by
  obtain ⟨absent, behind, rfl⟩ := beforeFirst?_eq_some_iff.mp found
  have stands : StandsFirst [mark] front behind (front ++ mark :: behind) :=
    standsFirst_singleton_iff.mpr ⟨absent, rfl⟩
  refine ⟨_, (findBytes?_eq_some_iff plain (List.cons_ne_nil _ _)).mpr ⟨front, _, stands, rfl⟩, ?_⟩
  rw [String.ofList_append]
  exact sliceTo_append _ _

theorem findBytes?_of_beforeFirst?_eq_none (nothing : beforeFirst? mark text = none) :
    findBytes? (String.ofList [mark]) (String.ofList text) = none := by
  refine Option.eq_none_iff_forall_ne_some.mpr fun offset found => ?_
  obtain ⟨front, behind, stands, _⟩ := (findBytes?_eq_some_iff plain (List.cons_ne_nil _ _)).mp found
  rw [beforeFirst?_eq_some_iff.mpr ⟨(standsFirst_singleton_iff.mp stands).1, behind,
    (standsFirst_singleton_iff.mp stands).2⟩] at nothing
  cases nothing

end FindCharacter

end SampleMethods.Text
