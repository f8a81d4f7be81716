import SampleMethods.Text.Split

/-!
# The pieces of a text

A text without the mark is a single piece, and at a mark the text is cut on
either side by itself. So cutting a text and joining its pieces gives the text
(`join_cutAt`), and joining pieces without marks and cutting gives the pieces
(`cutAt_join`).
-/

set_option autoImplicit false

namespace SampleMethods.Text

variable {α : Type}

/-! ## Joining -/

theorem join_cons {pieces : List (List α)} (nonempty : pieces ≠ [])
    (separator piece : List α) :
    join separator (piece :: pieces) = piece ++ separator ++ join separator pieces := by
  obtain ⟨first, others, rfl⟩ := List.exists_cons_of_ne_nil nonempty
  rfl

theorem join_append {front behind : List (List α)} (frontNonempty : front ≠ [])
    (behindNonempty : behind ≠ []) (separator : List α) :
    join separator (front ++ behind) =
      join separator front ++ separator ++ join separator behind := by
  induction front with
  | nil => exact absurd rfl frontNonempty
  | cons piece pieces ih =>
      cases pieces with
      | nil => exact join_cons behindNonempty separator piece
      | cons second rest =>
          have restNonempty : second :: rest ≠ [] := List.cons_ne_nil second rest
          rw [List.cons_append, join_cons (by simp), ih restNonempty, join_cons restNonempty]
          simp only [List.append_assoc]

/-- Between two joined texts the last piece of the one goes on with the first one of the other. -/
theorem join_append_join (separator last first : List α) (pieces others : List (List α)) :
    join separator (pieces ++ [last]) ++ join separator (first :: others) =
      join separator (pieces ++ (last ++ first) :: others) := by
  induction pieces with
  | nil =>
      cases others with
      | nil => rfl
      | cons second rest => simp [join]
  | cons piece pieces ih =>
      have frontNonempty : pieces ++ [last] ≠ [] := by simp
      have bothNonempty : pieces ++ (last ++ first) :: others ≠ [] := by simp
      rw [List.cons_append, List.cons_append, join_cons frontNonempty, join_cons bothNonempty,
        List.append_assoc, ih]

theorem length_le_length_join {separator piece : List α} {pieces : List (List α)}
    (isPiece : piece ∈ pieces) : piece.length ≤ (join separator pieces).length := by
  induction pieces with
  | nil => cases isPiece
  | cons first rest ih =>
      cases rest with
      | nil =>
          rw [List.mem_singleton.mp isPiece]
          exact Nat.le_refl _
      | cons second others =>
          rw [join_cons (List.cons_ne_nil second others)]
          simp only [List.length_append]
          rcases List.mem_cons.mp isPiece with rfl | behind
          · omega
          · have := ih behind
            omega

/-! ## Cutting -/

theorem cutAt_ne_nil [BEq α] (mark : α) (text : List α) : cutAt mark text ≠ [] := by
  cases text with
  | nil => exact List.cons_ne_nil _ _
  | cons character rest =>
      rw [cutAt]
      cases character == mark with
      | true => exact List.cons_ne_nil _ _
      | false => cases cutAt mark rest <;> exact List.cons_ne_nil _ _

variable [BEq α] [LawfulBEq α] {mark : α}

theorem cutAt_of_not_mem {text : List α} (absent : mark ∉ text) :
    cutAt mark text = [text] := by
  induction text with
  | nil => rfl
  | cons character rest ih =>
      have differs : (character == mark) = false :=
        beq_eq_false_iff_ne.mpr fun same => absent (same ▸ List.mem_cons_self)
      rw [cutAt, differs, ih fun member => absent (List.mem_cons_of_mem _ member)]
      rfl

/-- A character that is no mark begins the first piece. -/
theorem exists_cutAt_cons {character : α} (differs : character ≠ mark) (rest : List α) :
    ∃ piece pieces, cutAt mark (character :: rest) = (character :: piece) :: pieces := by
  obtain ⟨piece, pieces, isRest⟩ := List.exists_cons_of_ne_nil (cutAt_ne_nil mark rest)
  exact ⟨piece, pieces, by simp [cutAt, differs, isRest]⟩

/-- **At a mark a text is cut on either side by itself.** -/
theorem cutAt_append_cons (front behind : List α) :
    cutAt mark (front ++ mark :: behind) = cutAt mark front ++ cutAt mark behind := by
  induction front with
  | nil => simp [cutAt]
  | cons character rest ih =>
      rw [List.cons_append, cutAt, cutAt, ih]
      cases character == mark with
      | true => rfl
      | false =>
          obtain ⟨piece, pieces, pieceFirst⟩ :=
            List.exists_cons_of_ne_nil (cutAt_ne_nil mark rest)
          rw [pieceFirst]
          rfl

theorem not_mem_of_mem_cutAt {text piece : List α} (isPiece : piece ∈ cutAt mark text) :
    mark ∉ piece := by
  induction text generalizing piece with
  | nil =>
      rw [List.mem_singleton.mp isPiece]
      exact List.not_mem_nil
  | cons character rest ih =>
      rw [cutAt] at isPiece
      cases differs : character == mark with
      | true =>
          rw [differs] at isPiece
          rcases List.mem_cons.mp isPiece with rfl | inRest
          · exact List.not_mem_nil
          · exact ih inRest
      | false =>
          obtain ⟨first, others, isCut⟩ := List.exists_cons_of_ne_nil (cutAt_ne_nil mark rest)
          rw [differs, isCut] at isPiece
          rw [isCut] at ih
          rcases List.mem_cons.mp isPiece with rfl | inOthers
          · rw [List.mem_cons, not_or]
            exact ⟨fun same => beq_eq_false_iff_ne.mp differs same.symm, ih List.mem_cons_self⟩
          · exact ih (List.mem_cons_of_mem _ inOthers)

/-- Texts that each end with a mark, and have no other one, are cut apart, and nothing is left. -/
theorem cutAt_flatMap_concat {β : Type} {items : List β} {textOf : β → List α}
    (unmarked : ∀ item ∈ items, mark ∉ textOf item) :
    cutAt mark (items.flatMap fun item => textOf item ++ [mark]) = items.map textOf ++ [[]] := by
  induction items with
  | nil => rfl
  | cons item items ih =>
      obtain ⟨here, others⟩ := List.forall_mem_cons.mp unmarked
      rw [List.flatMap_cons, List.append_assoc, List.singleton_append, cutAt_append_cons,
        cutAt_of_not_mem here, ih others]
      rfl

/-! ## Cutting and joining -/

/-- **Joining the pieces of a text gives the text.** -/
theorem join_cutAt (mark : α) (text : List α) : join [mark] (cutAt mark text) = text := by
  induction text with
  | nil => rfl
  | cons character rest ih =>
      rw [cutAt]
      cases differs : character == mark with
      | true =>
          rw [beq_iff_eq.mp differs, if_pos rfl, join_cons (cutAt_ne_nil mark rest), ih]
          rfl
      | false =>
          obtain ⟨first, others, isCut⟩ := List.exists_cons_of_ne_nil (cutAt_ne_nil mark rest)
          rw [isCut] at ih ⊢
          rw [← ih]
          cases others with
          | nil => rfl
          | cons second further => rfl

/-- **Cutting joined pieces gives the pieces.** -/
theorem cutAt_join {pieces : List (List α)} (nonempty : pieces ≠ [])
    (unmarked : ∀ piece ∈ pieces, mark ∉ piece) : cutAt mark (join [mark] pieces) = pieces := by
  induction pieces with
  | nil => exact absurd rfl nonempty
  | cons piece pieces ih =>
      have onePiece : cutAt mark piece = [piece] :=
        cutAt_of_not_mem (unmarked piece List.mem_cons_self)
      cases pieces with
      | nil => exact onePiece
      | cons second rest =>
          have rest := ih (by simp) fun other member => unmarked other (List.mem_cons_of_mem _ member)
          rw [join_cons (by simp), List.append_assoc, List.singleton_append, cutAt_append_cons,
            onePiece, rest]
          rfl

/-- **Where two texts meet, the last piece of the one goes on with the first piece of the other.** -/
theorem cutAt_append {front behind last first : List α} {pieces others : List (List α)}
    (isFront : cutAt mark front = pieces ++ [last]) (isBehind : cutAt mark behind = first :: others) :
    cutAt mark (front ++ behind) = pieces ++ (last ++ first) :: others := by
  have isText : front ++ behind = join [mark] (pieces ++ (last ++ first) :: others) := by
    rw [← join_append_join, ← isFront, ← isBehind, join_cutAt, join_cutAt]
  have frontUnmarked : ∀ piece ∈ pieces ++ [last], mark ∉ piece := fun piece isPiece =>
    not_mem_of_mem_cutAt (isFront ▸ isPiece)
  have behindUnmarked : ∀ piece ∈ first :: others, mark ∉ piece := fun piece isPiece =>
    not_mem_of_mem_cutAt (isBehind ▸ isPiece)
  rw [isText]
  refine cutAt_join (by simp) ?_
  intro piece isPiece
  rcases List.mem_append.mp isPiece with inFront | inBehind
  · exact frontUnmarked piece (List.mem_append_left _ inFront)
  · rcases List.mem_cons.mp inBehind with rfl | inOthers
    · rw [List.mem_append, not_or]
      exact ⟨frontUnmarked last (by simp), behindUnmarked first (by simp)⟩
    · exact behindUnmarked piece (List.mem_cons_of_mem _ inOthers)

end SampleMethods.Text
