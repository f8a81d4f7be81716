import Mathlib.Data.Char
import Mathlib.Data.List.Infix
import Mathlib.Tactic.SplitIfs
import SampleMethods.Text.Bytes

/-!
# Texts and their bytes

Reading is held to writing from both directions: the bytes of a text are read as that text
(`decode_encode`), and bytes in which every part is a character are those of the text that
they are read as (`encode_of_decode`). So the text that is written as given bytes is found
whenever there is one (`decode?_eq_some_iff`), and there is at most one.

A text of plain characters, each of which is a single byte, begins the bytes of another text
just if it begins the text (`prefix_bytes_iff`), and stands among them just if it stands in
the text (`infix_bytes_iff`): no byte of a longer character is a plain one. So bytes that
are no text are shown alike on either side of a slash (`decodeLossy_append_slash`), and a
text is cut where its bytes are cut at a plain character (`encode_eq_append_iff`).
-/

set_option autoImplicit false

namespace SampleMethods.Text

/-! ## Single characters -/

section Characters

variable {code : ℕ} {numbers : List ℕ} {character : Char}

/-- The numbers of the bytes of a character. -/
def numbersOf (code : ℕ) : List ℕ :=
  if code < 0x80 then [code]
  else if code < 0x800 then [0xC0 + code / 0x40, 0x80 + code % 0x40]
  else if code < 0x10000 then
    [0xE0 + code / 0x1000, 0x80 + code / 0x40 % 0x40, 0x80 + code % 0x40]
  else
    [0xF0 + code / 0x40000, 0x80 + code / 0x1000 % 0x40, 0x80 + code / 0x40 % 0x40,
      0x80 + code % 0x40]

/-- The code of a character is no surrogate. -/
theorem valid_toNat (character : Char) :
    character.toNat < 0xD800 ∨ 0xE000 ≤ character.toNat ∧ character.toNat < 0x110000 := by
  have valid : character.toNat.isValidChar := character.valid
  unfold Nat.isValidChar at valid
  omega

theorem map_toNat_bytesOf (character : Char) :
    (bytesOf character).map UInt8.toNat = numbersOf character.toNat := by
  have valid := valid_toNat character
  have isCode : character.val.toNat = character.toNat := rfl
  simp only [bytesOf, String.utf8EncodeChar, numbersOf, isCode]
  split_ifs <;> simp only [List.map_cons, List.map_nil, UInt8.toNat_ofNat', List.cons.injEq,
    and_true] <;> omega

theorem toNat_ofNat_of_valid (valid : code < 0xD800 ∨ 0xE000 ≤ code ∧ code < 0x110000) :
    (Char.ofNat code).toNat = code := by
  have isValid : code.isValidChar := by
    unfold Nat.isValidChar
    omega
  rw [Char.ofNat, dif_pos isValid]
  rfl

theorem isTail_iff {byte : ℕ} : isTail byte = true ↔ 0x80 ≤ byte ∧ byte < 0xC0 := by
  simp [isTail]

theorem isLead_iff {first second : ℕ} : isLead first second = true ↔
    (0xC2 ≤ first ∧ first < 0xF5) ∧ (0x80 ≤ second ∧ second < 0xC0) ∧
      (first = 0xE0 → 0xA0 ≤ second) ∧ (first = 0xED → second < 0xA0) ∧
      (first = 0xF0 → 0x90 ≤ second) ∧ (first = 0xF4 → second < 0x90) := by
  unfold isLead
  simp only [beq_iff_eq]
  split_ifs <;> simp only [Bool.and_eq_true, decide_eq_true_eq, isTail_iff] <;> omega

/-- The bytes of a character are read as that character. -/
theorem pieceOf_numbersOf (valid : code < 0xD800 ∨ 0xE000 ≤ code ∧ code < 0x110000) :
    pieceOf (numbersOf code) = .character (.ofNat code) := by
  unfold numbersOf
  split_ifs with one two three <;> unfold pieceOf <;>
    simp only [Bool.and_eq_true, decide_eq_true_eq, isLead_iff, isTail_iff]
  · rw [if_pos one]
  · rw [if_pos (by omega), if_pos (by omega)]
    exact congrArg (fun code => Piece.character (.ofNat code)) (by omega)
  · rw [if_pos (by omega), if_pos (by omega)]
    exact congrArg (fun code => Piece.character (.ofNat code)) (by omega)
  · rw [if_pos (by omega)]
    exact congrArg (fun code => Piece.character (.ofNat code)) (by omega)

theorem pieceOf_take_numbersOf (valid : code < 0xD800 ∨ 0xE000 ≤ code ∧ code < 0x110000)
    {size : ℕ} (some : 0 < size) (short : size < (numbersOf code).length) :
    pieceOf ((numbersOf code).take size) = .begun := by
  unfold numbersOf at short ⊢
  split_ifs at short ⊢ with one two three
  all_goals
    simp only [List.length_cons, List.length_nil] at short
  · omega
  · obtain rfl : size = 1 := by omega
    simp only [List.take, pieceOf, Bool.and_eq_true, decide_eq_true_eq]
    rw [if_neg (by omega), if_pos (by omega)]
  · obtain rfl | rfl : size = 1 ∨ size = 2 := by omega
    all_goals
      simp only [List.take, pieceOf, Bool.and_eq_true, decide_eq_true_eq, isLead_iff]
    · rw [if_neg (by omega), if_pos (by omega)]
    · rw [if_pos (by omega), if_neg (by omega)]
  · obtain rfl | rfl | rfl : size = 1 ∨ size = 2 ∨ size = 3 := by omega
    all_goals
      simp only [List.take, pieceOf, Bool.and_eq_true, decide_eq_true_eq, isLead_iff, isTail_iff]
    · rw [if_neg (by omega), if_pos (by omega)]
    · rw [if_pos (by omega), if_neg (by omega)]
    · rw [if_pos (by omega), if_neg (by omega)]

/-- What is read as a character are the bytes of that character. -/
theorem numbersOf_of_pieceOf (isPiece : pieceOf numbers = .character character) :
    numbersOf character.toNat = numbers := by
  unfold pieceOf at isPiece
  split at isPiece
  all_goals
    try simp only [Bool.and_eq_true, decide_eq_true_eq, isLead_iff, isTail_iff] at isPiece
  · split_ifs at isPiece
    obtain rfl := Piece.character.inj isPiece
    rw [toNat_ofNat_of_valid (by omega), numbersOf, if_pos (by omega)]
  · split_ifs at isPiece
    obtain rfl := Piece.character.inj isPiece
    rw [toNat_ofNat_of_valid (by omega), numbersOf, if_neg (by omega), if_pos (by omega),
      List.cons.injEq, List.cons.injEq]
    exact ⟨by omega, by omega, rfl⟩
  · split_ifs at isPiece
    obtain rfl := Piece.character.inj isPiece
    rw [toNat_ofNat_of_valid (by omega), numbersOf, if_neg (by omega), if_neg (by omega),
      if_pos (by omega), List.cons.injEq, List.cons.injEq, List.cons.injEq]
    exact ⟨by omega, by omega, by omega, rfl⟩
  · split_ifs at isPiece
    obtain rfl := Piece.character.inj isPiece
    rw [toNat_ofNat_of_valid (by omega), numbersOf, if_neg (by omega), if_neg (by omega),
      if_neg (by omega), List.cons.injEq, List.cons.injEq, List.cons.injEq, List.cons.injEq]
    exact ⟨by omega, by omega, by omega, by omega, rfl⟩
  · cases isPiece

theorem bytesOf_of_piece {bytes : Bytes} (isPiece : piece bytes = .character character) :
    bytesOf character = bytes := by
  refine List.map_injective_iff.mpr (fun _ _ => UInt8.toNat_inj.mp) ?_
  rw [map_toNat_bytesOf]
  exact numbersOf_of_pieceOf isPiece

theorem piece_bytesOf (character : Char) : piece (bytesOf character) = .character character := by
  rw [piece, map_toNat_bytesOf, pieceOf_numbersOf (valid_toNat character), Char.ofNat_toNat]

/-- In front of its last byte a character is begun. -/
theorem piece_of_append {front back : Bytes} (cut : bytesOf character = front ++ back)
    (some : front ≠ []) (more : back ≠ []) : piece front = .begun := by
  have someLength := List.length_pos_of_ne_nil some
  have moreLength := List.length_pos_of_ne_nil more
  have short : front.length < (numbersOf character.toNat).length := by
    rw [← map_toNat_bytesOf, List.length_map, cut, List.length_append]
    omega
  have isFront : front.map UInt8.toNat = (numbersOf character.toNat).take front.length := by
    rw [← map_toNat_bytesOf, cut, ← List.map_take, List.take_left]
  rw [piece, isFront]
  exact pieceOf_take_numbersOf (valid_toNat character) someLength short

theorem bytesOf_ne_nil : bytesOf character ≠ [] :=
  String.utf8EncodeChar_ne_nil

end Characters

/-! ## Reading what was written -/

section Decode

variable {begun rest : Bytes} {byte : UInt8} {character : Char}

theorem decodeBehind_of_begun (isBegun : piece (begun ++ [byte]) = .begun) :
    decodeBehind begun (byte :: rest) = decodeBehind (begun ++ [byte]) rest := by
  cases begun with
  | nil =>
      rw [List.nil_append] at isBegun ⊢
      simp only [decodeBehind, List.isEmpty_nil, if_true, isBegun]
  | cons =>
      simp only [decodeBehind, List.isEmpty_cons, isBegun]
      rfl

theorem decodeBehind_of_character (isPiece : piece (begun ++ [byte]) = .character character) :
    decodeBehind begun (byte :: rest) = some character :: decodeBehind [] rest := by
  cases begun with
  | nil =>
      rw [List.nil_append] at isPiece
      simp only [decodeBehind, List.isEmpty_nil, if_true, isPiece]
  | cons =>
      simp only [decodeBehind, List.isEmpty_cons, isPiece]
      rfl

/-- Bytes that begin no character leave a gap, from which on the reading starts again. -/
theorem decodeBehind_of_broken (isBroken : piece (begun ++ [byte]) = .broken) (rest : Bytes) :
    ∃ others, decodeBehind begun (byte :: rest) = none :: others := by
  cases begun with
  | nil =>
      rw [List.nil_append] at isBroken
      exact ⟨_, by simp only [decodeBehind, List.isEmpty_nil, if_true, isBroken]; rfl⟩
  | cons => exact ⟨_, by simp only [decodeBehind, List.isEmpty_cons, isBroken]; rfl⟩

/-- Behind the first bytes of a character, the other ones are read to its end. -/
theorem decodeBehind_append {back : Bytes} (cut : bytesOf character = begun ++ back)
    (more : back ≠ []) :
    decodeBehind begun (back ++ rest) = some character :: decodeBehind [] rest := by
  induction back generalizing begun with
  | nil => exact absurd rfl more
  | cons byte back ih =>
      rw [List.append_cons] at cut
      cases back with
      | nil =>
          rw [List.append_nil] at cut
          exact decodeBehind_of_character (cut ▸ piece_bytesOf character)
      | cons next back =>
          have isBegun := piece_of_append cut (by simp) (List.cons_ne_nil _ _)
          rw [List.cons_append, decodeBehind_of_begun isBegun]
          exact ih cut (List.cons_ne_nil _ _)

/-- **The bytes of a text are read as that text.** -/
theorem decode_encode (text : List Char) : decode (encode text) = text.map some := by
  induction text with
  | nil => rfl
  | cons character text ih =>
      have read : decode (encode (character :: text)) = some character :: decode (encode text) :=
        decodeBehind_append (List.nil_append _).symm bytesOf_ne_nil
      rw [read, ih, List.map_cons]

/-- What is read without a gap, behind bytes that began a character, is written as those bytes. -/
theorem encode_of_decodeBehind {text : List Char}
    (read : decodeBehind begun rest = text.map some) : encode text = begun ++ rest := by
  induction rest generalizing begun text with
  | nil =>
      cases begun with
      | nil =>
          rw [List.map_eq_nil_iff.mp read.symm]
          rfl
      | cons => cases text <;> cases read
  | cons byte rest ih =>
      have emptied : ∀ {text}, decodeBehind [] rest = text.map some → encode text = rest := ih
      cases isPiece : piece (begun ++ [byte]) with
      | character character =>
          rw [decodeBehind_of_character isPiece] at read
          obtain ⟨first, others, rfl, isFirst, behind⟩ := List.map_eq_cons_iff.mp read.symm
          obtain rfl := Option.some.inj isFirst
          rw [List.append_cons, ← bytesOf_of_piece isPiece, ← emptied behind.symm]
          rfl
      | begun =>
          rw [decodeBehind_of_begun isPiece] at read
          rw [ih read, List.append_assoc]
          rfl
      | broken =>
          obtain ⟨others, gap⟩ := decodeBehind_of_broken isPiece rest
          rw [gap] at read
          cases text <;> cases read

/-- **Bytes in which every part is a character are those of the text that they are read as.** -/
theorem encode_of_decode {bytes : Bytes} {text : List Char} (read : decode bytes = text.map some) :
    encode text = bytes :=
  encode_of_decodeBehind read

theorem mapM_id_eq_some_iff {read : List (Option Char)} {text : List Char} :
    read.mapM id = some text ↔ read = text.map some := by
  induction read generalizing text with
  | nil =>
      rw [List.mapM_nil, eq_comm (a := []), List.map_eq_nil_iff]
      exact Option.some_inj.trans eq_comm
  | cons first others ih =>
      rw [List.mapM_cons, eq_comm (a := first :: others), List.map_eq_cons_iff]
      simp only [id_eq, Option.bind_eq_bind, Option.pure_def, Option.bind_eq_some_iff,
        Option.some.injEq, ih]
      constructor
      · rintro ⟨character, rfl, text, rfl, rfl⟩
        exact ⟨character, text, rfl, rfl, rfl⟩
      · rintro ⟨character, text, rfl, rfl, rfl⟩
        exact ⟨character, rfl, text, rfl, rfl⟩

/-- **A text is found from bytes just if it is written as them.** -/
theorem decode?_eq_some_iff {bytes : Bytes} {text : List Char} :
    decode? bytes = some text ↔ bytes = encode text := by
  rw [decode?, mapM_id_eq_some_iff]
  constructor
  · intro read
    exact (encode_of_decode read).symm
  · rintro rfl
    exact decode_encode text

theorem decode?_encode (text : List Char) : decode? (encode text) = some text :=
  decode?_eq_some_iff.mpr rfl

theorem encode_injective : Function.Injective encode := fun first second same => by
  have read := decode_encode second
  rw [← same, decode_encode] at read
  exact List.map_injective_iff.mpr (fun _ _ => Option.some.inj) read

theorem decodeLossy_encode (text : List Char) : decodeLossy (encode text) = text := by
  rw [decodeLossy, decode_encode, List.map_map]
  exact List.map_id _

/-- No character has the byte of the slash behind other bytes. -/
theorem piece_append_slash {begun : Bytes} (nonempty : begun ≠ []) :
    piece (begun ++ [slash]) = .broken := by
  rw [piece, List.map_append]
  match begun, nonempty with
  | [first], _ => simp [pieceOf, isLead, isTail, slash]
  | [first, second], _ => simp [pieceOf, isTail, slash]
  | [first, second, third], _ => simp [pieceOf, isTail, slash]
  | _ :: _ :: _ :: _ :: _, _ => simp [pieceOf]

/-- **A slash parts what is read in front of it from what is read behind it.** -/
theorem decodeBehind_append_slash (begun front back : Bytes) :
    decodeBehind begun (front ++ slash :: back) =
      decodeBehind begun front ++ some '/' :: decodeBehind [] back := by
  have isSlash : piece [slash] = .character '/' := by decide
  induction front generalizing begun with
  | nil =>
      cases begun with
      | nil => simp [decodeBehind, isSlash]
      | cons first others =>
          have broken := piece_append_slash (List.cons_ne_nil first others)
          simp only [List.nil_append, decodeBehind, List.isEmpty_cons, broken, isSlash]
          rfl
  | cons byte front ih =>
      simp only [List.cons_append, decodeBehind]
      split_ifs
      · cases piece [byte] <;> simp [ih]
      · cases piece (begun ++ [byte]) <;> cases piece [byte] <;> simp [ih]

theorem decodeLossy_append_slash (front back : Bytes) :
    decodeLossy (front ++ slash :: back) = decodeLossy front ++ '/' :: decodeLossy back := by
  simp [decodeLossy, decode, decodeBehind_append_slash]

end Decode

/-- Each character of the text is a single byte. -/
def IsPlain (text : List Char) : Prop :=
  ∀ character ∈ text, character.toNat < 128

instance : DecidablePred IsPlain := fun text =>
  decidable_of_iff (text.all fun character => decide (character.toNat < 128)) (by simp [IsPlain])

/-! ## Plain characters -/

/-- The byte of a plain character. -/
def byteOf (character : Char) : UInt8 :=
  .ofNat character.toNat

section PlainCharacters

variable {character other : Char}

theorem bytesOf_plain (plain : character.toNat < 128) : bytesOf character = [byteOf character] := by
  have small : character.val.toNat ≤ 127 := Nat.le_of_lt_succ plain
  simp only [bytesOf, String.utf8EncodeChar, if_pos small]
  rfl

theorem toNat_byteOf (plain : character.toNat < 128) : (byteOf character).toNat = character.toNat :=
  UInt8.toNat_ofNat_of_lt' (Nat.lt_trans plain (by decide))

/-- All bytes of a longer character are beyond those of plain ones. -/
theorem le_of_mem_bytesOf (long : 128 ≤ character.toNat) :
    ∀ byte ∈ bytesOf character, 128 ≤ byte.toNat := by
  have large : ¬character.val.toNat ≤ 127 := by
    have : character.val.toNat = character.toNat := rfl
    omega
  intro byte member
  simp only [bytesOf, String.utf8EncodeChar, if_neg large] at member
  split_ifs at member <;> simp only [List.mem_cons, List.not_mem_nil, or_false] at member <;>
    rcases member with rfl | rfl | rfl | rfl <;> simp only [UInt8.toNat_ofNat'] <;> omega

theorem byteOf_not_mem_bytesOf (plain : character.toNat < 128) (long : 128 ≤ other.toNat) :
    byteOf character ∉ bytesOf other := by
  intro member
  have := le_of_mem_bytesOf long _ member
  rw [toNat_byteOf plain] at this
  omega

theorem byteOf_inj (plain : character.toNat < 128) (otherPlain : other.toNat < 128) :
    byteOf character = byteOf other ↔ character = other := by
  rw [← UInt8.toNat_inj, toNat_byteOf plain, toNat_byteOf otherPlain, Char.toNat_inj]

end PlainCharacters

/-! ## Plain texts -/

section PlainTexts

variable {mark text : List Char}

theorem encode_cons (character : Char) (text : List Char) :
    encode (character :: text) = bytesOf character ++ encode text :=
  rfl

theorem encode_cons_plain {character : Char} (plain : character.toNat < 128)
    (text : List Char) :
    encode (character :: text) = byteOf character :: encode text := by
  rw [encode_cons, bytesOf_plain plain, List.singleton_append]

/-- **Where bytes of a text are cut at a plain character, the text is cut.** -/
theorem encode_eq_append_iff {character : Char} (plain : character.toNat < 128)
    {text : List Char} {front back : Bytes} :
    encode text = front ++ byteOf character :: back ↔
      ∃ before behind, text = before ++ character :: behind ∧ front = encode before ∧
        back = encode behind := by
  constructor
  · intro isCut
    induction text generalizing front with
    | nil => simp [encode] at isCut
    | cons first text ih =>
        rw [encode_cons] at isCut
        rcases List.append_eq_append_iff.mp isCut with
          ⟨inside, rfl, cut⟩ | ⟨inside, isBytes, cut⟩
        · obtain ⟨before, behind, rfl, rfl, rfl⟩ := ih cut
          exact ⟨first :: before, behind, rfl, rfl, rfl⟩
        · cases inside with
          | nil =>
              -- The cut is right behind the first character.
              rw [List.append_nil] at isBytes
              rw [List.nil_append] at cut
              obtain ⟨before, behind, rfl, isBefore, rfl⟩ :=
                ih (cut.symm.trans (List.nil_append _).symm)
              exact ⟨first :: before, behind, rfl,
                by rw [encode_cons, ← isBefore, List.append_nil, isBytes], rfl⟩
          | cons byte inside =>
              -- The cut is in front of a byte of the first character, so that is the plain one.
              obtain ⟨rfl, isBack⟩ := List.cons_eq_cons.mp cut
              have member : byteOf character ∈ bytesOf first := by
                rw [isBytes]
                exact List.mem_append_right _ List.mem_cons_self
              have firstPlain : first.toNat < 128 := Nat.lt_of_not_le fun long =>
                byteOf_not_mem_bytesOf plain long member
              rw [bytesOf_plain firstPlain] at member isBytes
              obtain rfl := (byteOf_inj plain firstPlain).mp (List.mem_singleton.mp member)
              obtain ⟨rfl, rfl⟩ : front = [] ∧ inside = [] := by
                have lengths := congrArg List.length isBytes
                simp only [List.length_append, List.length_cons, List.length_nil] at lengths
                exact ⟨List.length_eq_zero_iff.mp (by omega),
                  List.length_eq_zero_iff.mp (by omega)⟩
              exact ⟨[], text, rfl, rfl, isBack⟩
  · rintro ⟨before, behind, rfl, rfl, rfl⟩
    rw [encode, List.flatMap_append, List.flatMap_cons, bytesOf_plain plain]
    rfl

theorem byteOf_mem_encode_iff {character : Char} (plain : character.toNat < 128)
    {text : List Char} : byteOf character ∈ encode text ↔ character ∈ text := by
  rw [List.mem_iff_append, List.mem_iff_append]
  constructor
  · rintro ⟨front, back, cut⟩
    obtain ⟨before, behind, rfl, _, _⟩ := (encode_eq_append_iff plain).mp cut
    exact ⟨before, behind, rfl⟩
  · rintro ⟨before, behind, rfl⟩
    exact ⟨_, _, (encode_eq_append_iff plain).mpr ⟨before, behind, rfl, rfl, rfl⟩⟩

/-- A plain character does not begin the bytes of a longer one. -/
theorem not_prefix_of_long {first character : Char} {others : Bytes} (plain : first.toNat < 128)
    (long : 128 ≤ character.toNat) :
    ¬byteOf first :: others <+: encode (character :: text) := by
  intro isPrefix
  obtain ⟨lead, behind, isBytes⟩ : ∃ lead behind, bytesOf character = lead :: behind := by
    refine List.exists_cons_of_length_pos ?_
    rw [bytesOf, String.length_utf8EncodeChar]
    exact character.utf8Size_pos
  rw [encode_cons, isBytes, List.cons_append] at isPrefix
  have same : byteOf first = lead := (List.cons_prefix_cons.mp isPrefix).1
  exact byteOf_not_mem_bytesOf plain long (by rw [isBytes, same]; exact .head _)

/-- **A plain text begins the bytes of a text just if it begins the text.** -/
theorem prefix_bytes_iff (plain : IsPlain mark) :
    encode mark <+: encode text ↔ mark <+: text := by
  induction mark generalizing text with
  | nil => exact iff_of_true List.nil_prefix List.nil_prefix
  | cons first mark ih =>
      obtain ⟨firstPlain, plain⟩ := List.forall_mem_cons.mp plain
      rw [encode_cons_plain firstPlain]
      cases text with
      | nil => simp [encode]
      | cons character text =>
          by_cases isPlain : character.toNat < 128
          · rw [encode_cons_plain isPlain, List.cons_prefix_cons, List.cons_prefix_cons,
              ih plain, byteOf_inj firstPlain isPlain]
          · have differs : first ≠ character := fun same => isPlain (same ▸ firstPlain)
            refine iff_of_false (not_prefix_of_long firstPlain (Nat.le_of_not_lt isPlain)) ?_
            exact fun isPrefix => differs (List.cons_prefix_cons.mp isPrefix).1

/-- A row of bytes whose first byte is not in a text does not begin there. -/
theorem infix_append_iff_of_not_mem {first : UInt8} {others front back : Bytes}
    (absent : first ∉ front) :
    first :: others <:+: front ++ back ↔ first :: others <:+: back := by
  induction front with
  | nil => rfl
  | cons byte front ih =>
      rw [List.mem_cons, not_or] at absent
      rw [List.cons_append, List.infix_cons_iff, ih absent.2, or_iff_right]
      exact fun isPrefix => absent.1 (List.cons_prefix_cons.mp isPrefix).1

/-- **A plain text stands among the bytes of a text just if it stands in the text.** -/
theorem infix_bytes_iff (plain : IsPlain mark) (nonempty : mark ≠ []) :
    encode mark <:+: encode text ↔ mark <:+: text := by
  obtain ⟨first, others, rfl⟩ := List.exists_cons_of_ne_nil nonempty
  have firstPlain := (List.forall_mem_cons.mp plain).1
  induction text with
  | nil =>
      rw [encode_cons_plain firstPlain]
      exact iff_of_false (List.cons_ne_nil _ _ ∘ List.infix_nil.mp)
        (List.cons_ne_nil _ _ ∘ List.infix_nil.mp)
  | cons character text ih =>
      have begins : encode (first :: others) <+: encode (character :: text) ↔
          first :: others <+: character :: text := prefix_bytes_iff plain
      refine Iff.trans ?_ (List.infix_cons_iff.trans (or_congr begins.symm ih.symm)).symm
      by_cases isPlain : character.toNat < 128
      · rw [encode_cons_plain isPlain]
        exact List.infix_cons_iff
      · have long := Nat.le_of_not_lt isPlain
        rw [encode_cons_plain firstPlain, or_iff_right (not_prefix_of_long firstPlain long)]
        exact infix_append_iff_of_not_mem (byteOf_not_mem_bytesOf firstPlain long)

end PlainTexts

end SampleMethods.Text
