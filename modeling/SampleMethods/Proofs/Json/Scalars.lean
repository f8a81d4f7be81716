import Mathlib.Data.Nat.Digits.Defs
import Mathlib.Tactic.IntervalCases
import SampleMethods.Json.Decoder
import SampleMethods.Json.Printer
import SampleMethods.Proofs.Json.Reads

/-!
# Strings and numbers are read back

Every string is read from its quoted text (`takes_string`): each character is read from
what is written for it, be it an escape or the character itself
(`reads_stringTail_written`). Every whole number of 64 bits is read from its decimal
digits (`reads_number`), and a number below a bound is taken where numbers below the
bound are wanted (`takes_bounded`).
-/

set_option autoImplicit false

namespace SampleMethods.Json

open Reader

variable {levels : ℕ}

/-! ## Characters of a string -/

theorem Reader.reads_hexFour {first second third fourth : Char} {a b c d : ℕ}
    (isFirst : Text.hexDigit? first = some a) (isSecond : Text.hexDigit? second = some b)
    (isThird : Text.hexDigit? third = some c) (isFourth : Text.hexDigit? fourth = some d)
    (rest : List Char) :
    Reads levels hexFour (first :: second :: third :: fourth :: rest)
      (((a * 16 + b) * 16 + c) * 16 + d) rest := by
  have enough : ¬(([first, second, third, fourth] : List Char).foldl
      (fun sum character => sum + character.utf8Size) 0) < 4 := by
    have := first.utf8Size_pos
    have := second.utf8Size_pos
    have := third.utf8Size_pos
    have := fourth.utf8Size_pos
    simp only [List.foldl_cons, List.foldl_nil]
    omega
  have skips : Reads levels
      (do
        skip
        skip
        skip
        skip
        return ((a * 16 + b) * 16 + c) * 16 + d)
      (first :: second :: third :: fourth :: rest) (((a * 16 + b) * 16 + c) * 16 + d) rest :=
    (reads_skip _ _).bind
      ((reads_skip _ _).bind ((reads_skip _ _).bind ((reads_skip _ _).bind (.pure _))))
  refine .get fun place depth => ?_
  simp only [List.take_succ_cons, List.take_zero, enough, if_false]
  cases rest with
  | nil =>
      simp only [isFirst, isSecond, isThird, isFourth]
      exact skips
  | cons next rest =>
      simp only [isFirst, isSecond, isThird, isFourth]
      exact skips

/-- A control character is written with two digits, behind two zeros. -/
theorem hexDigit?_control : ∀ code < 0x20, ∃ third fourth : Char, ∃ a b : ℕ,
    (if code < 0x10 then '0' :: Text.hexDigits code else Text.hexDigits code) = [third, fourth] ∧
    Text.hexDigit? third = some a ∧ Text.hexDigit? fourth = some b ∧ a * 16 + b = code := by
  intro code small
  interval_cases code <;> exact ⟨_, _, _, _, rfl, rfl, rfl, rfl⟩

/-- The characters that are escaped by a letter, behind their letters. -/
def named : List (Char × Char) :=
  [('"', '"'), ('\\', '\\'), ('b', '\x08'), ('f', '\x0c'), ('n', '\n'), ('r', '\r'), ('t', '\t')]

/-- What may be written for a character inside a string. -/
inductive Written : Char → List Char → Prop where
  | byName {name character : Char} (isNamed : (name, character) ∈ named) :
      Written character ['\\', name]
  | byCode {third fourth character : Char} {a b : ℕ} (isThird : Text.hexDigit? third = some a)
      (isFourth : Text.hexDigit? fourth = some b) (isCode : a * 16 + b = character.toNat)
      (control : character.toNat < 0x20) :
      Written character ['\\', 'u', '0', '0', third, fourth]
  | asIs {character : Char} (noQuote : character ≠ '"') (noBackslash : character ≠ '\\')
      (noControl : ¬character.toNat < 0x20) :
      Written character [character]

theorem written_escape (character : Char) : Written character (escape character) := by
  rw [escape.eq_def]
  split
  iterate 7 exact .byName (by decide)
  rename_i noQuote noBackslash _ _ _ _ _
  by_cases control : character.toNat < 0x20
  · obtain ⟨third, fourth, a, b, areDigits, isThird, isFourth, isCode⟩ :=
      hexDigit?_control character.toNat control
    have isEscape : (if character.toNat < 0x10 then
        "\\u000".toList ++ Text.hexDigits character.toNat
      else if character.toNat < 0x20 then "\\u00".toList ++ Text.hexDigits character.toNat
      else [character]) = ['\\', 'u', '0', '0', third, fourth] := by
      rw [← areDigits]
      split_ifs <;> rfl
    rw [isEscape]
    exact .byCode isThird isFourth isCode control
  · rw [if_neg (by omega), if_neg control]
    exact .asIs noQuote noBackslash control

/-- An escape by a code point names a control character. -/
theorem Reader.reads_codePoint {third fourth character : Char} {a b : ℕ}
    (isThird : Text.hexDigit? third = some a) (isFourth : Text.hexDigit? fourth = some b)
    (isCode : a * 16 + b = character.toNat) (control : character.toNat < 0x20) (rest : List Char) :
    Reads levels codePoint ('0' :: '0' :: third :: fourth :: rest) character rest := by
  have isZero : Text.hexDigit? '0' = some 0 := rfl
  have isFour : Reads levels hexFour ('0' :: '0' :: third :: fourth :: rest) _ rest :=
    reads_hexFour isZero isZero isThird isFourth rest
  simp only [Nat.zero_mul, Nat.zero_add, isCode] at isFour
  refine isFour.bind ?_
  have noLow : (decide (0xDC00 ≤ character.toNat) && decide (character.toNat ≤ 0xDFFF)) = false := by
    simp only [Bool.and_eq_false_iff, decide_eq_false_iff_not]
    omega
  have noHigh : (decide (character.toNat < 0xD800) || decide (0xDBFF < character.toNat)) = true := by
    simp only [Bool.or_eq_true, decide_eq_true_eq]
    omega
  simp only [noLow, noHigh, Bool.false_eq_true, if_false, if_true]
  rw [Char.ofNat_toNat character]
  exact .pure character

section StringTail

variable {rounds : ℕ} {read rest behind : List Char}

/-- **Each character is read from what is written for it.** -/
theorem Reader.reads_stringTail_written {character : Char} {text : List Char} {value : String}
    (written : Written character text)
    (reads : Reads levels (stringTail rounds (character :: read)) rest value behind) :
    Reads levels (stringTail (rounds + 1) read) (text ++ rest) value behind := by
  have escaped : ∀ name digits, Reads levels escape (name :: digits) character rest →
      Reads levels (stringTail (rounds + 1) read) ('\\' :: name :: digits) value behind := by
    intro name digits isEscape
    exact (reads_next '\\' _).bind (isEscape.bind reads)
  cases written with
  | @byName name _ isNamed =>
      refine escaped name rest ((reads_next name rest).bind ?_)
      simp only [named, List.mem_cons, Prod.mk.injEq, List.not_mem_nil, or_false] at isNamed
      rcases isNamed with ⟨rfl, rfl⟩ | ⟨rfl, rfl⟩ | ⟨rfl, rfl⟩ | ⟨rfl, rfl⟩ | ⟨rfl, rfl⟩ |
        ⟨rfl, rfl⟩ | ⟨rfl, rfl⟩
      all_goals exact .pure _
  | byCode isThird isFourth isCode control =>
      exact escaped 'u' _
        ((reads_next 'u' _).bind (reads_codePoint isThird isFourth isCode control rest))
  | asIs noQuote noBackslash noControl =>
      refine (reads_next character rest).bind ?_
      split
      · rename_i isNone
        cases isNone
      · rename_i isQuote
        exact absurd (Option.some.inj isQuote) noQuote
      · rename_i isBackslash
        exact absurd (Option.some.inj isBackslash) noBackslash
      · rename_i other _ _ isOther
        cases isOther
        rw [if_neg noControl]
        exact reads

end StringTail

theorem Reader.reads_stringTail {rounds : ℕ} (characters read rest : List Char)
    (enough : characters.length < rounds) :
    Reads levels (stringTail rounds read) (characters.flatMap Json.escape ++ '"' :: rest)
      (String.ofList (read.reverse ++ characters)) rest := by
  induction characters generalizing rounds read with
  | nil =>
      obtain ⟨rounds, rfl⟩ := Nat.exists_eq_add_one_of_ne_zero (Nat.pos_iff_ne_zero.mp enough)
      rw [List.append_nil]
      exact (reads_next '"' rest).bind (.pure _)
  | cons character characters ih =>
      obtain ⟨rounds, rfl⟩ :=
        Nat.exists_eq_add_one_of_ne_zero (Nat.pos_iff_ne_zero.mp (Nat.zero_lt_of_lt enough))
      have readRest := ih (character :: read) (Nat.lt_of_succ_lt_succ enough)
      rw [List.reverse_cons, List.append_assoc] at readRest
      rw [List.flatMap_cons, List.append_assoc]
      exact reads_stringTail_written (written_escape character) readRest

/-! ## Strings -/

theorem Written.ne_nil {character : Char} {text : List Char} (written : Written character text) :
    text ≠ [] := by
  cases written with
  | byName => exact List.cons_ne_nil _ _
  | byCode => exact List.cons_ne_nil _ _
  | asIs => exact List.cons_ne_nil _ _

/-- There is no control character in the text, so there is no line end in it. -/
def OnOneLine (text : List Char) : Prop :=
  ∀ character ∈ text, 0x20 ≤ character.toNat

theorem onOneLine_singleton {character : Char} (noControl : 0x20 ≤ character.toNat) :
    OnOneLine [character] :=
  List.forall_mem_singleton.mpr noControl

theorem OnOneLine.append {first second : List Char} (firstOn : OnOneLine first)
    (secondOn : OnOneLine second) : OnOneLine (first ++ second) :=
  List.forall_mem_append.mpr ⟨firstOn, secondOn⟩

theorem OnOneLine.not_mem {text : List Char} (onOneLine : OnOneLine text) {character : Char}
    (control : character.toNat < 0x20) : character ∉ text :=
  fun member => Nat.not_lt.mpr (onOneLine character member) control

theorem le_toNat_of_hexDigit? {character : Char} {value : ℕ}
    (isDigit : Text.hexDigit? character = some value) : 0x20 ≤ character.toNat := by
  rw [Text.hexDigit?] at isDigit
  by_contra control
  have noDigit : ¬48 ≤ character.toNat ∧ ¬97 ≤ character.toNat ∧ ¬65 ≤ character.toNat := by
    omega
  simp [noDigit] at isDigit

/-- What is written for a character is on one line. -/
theorem Written.onOneLine {character : Char} {text : List Char} (written : Written character text) :
    OnOneLine text := by
  have sign : OnOneLine ['\\'] := onOneLine_singleton (by decide)
  cases written with
  | @byName name _ isNamed =>
      have each : ∀ entry ∈ named, 0x20 ≤ entry.1.toNat := by
        simp [named]
      exact sign.append (onOneLine_singleton (each _ isNamed))
  | byCode isThird isFourth _ _ =>
      have zero : OnOneLine ['0'] := onOneLine_singleton (by decide)
      have mark : OnOneLine ['u'] := onOneLine_singleton (by decide)
      exact sign.append (mark.append (zero.append (zero.append
        ((onOneLine_singleton (le_toNat_of_hexDigit? isThird)).append
          (onOneLine_singleton (le_toNat_of_hexDigit? isFourth))))))
  | asIs _ _ noControl => exact onOneLine_singleton (Nat.not_lt.mp noControl)

theorem length_le_length_escaped (characters : List Char) :
    characters.length ≤ (characters.flatMap escape).length := by
  induction characters with
  | nil => exact Nat.le_refl 0
  | cons character characters ih =>
      have written := List.length_pos_iff.mpr (written_escape character).ne_nil
      rw [List.flatMap_cons, List.length_append, List.length_cons]
      omega

theorem toList_quoted (text : String) :
    (quoted text).toList = '"' :: (text.toList.flatMap escape ++ ['"']) := by
  simp [quoted]

/-- A string is on one line, whatever characters it has. -/
theorem onOneLine_quoted (text : String) : OnOneLine (quoted text).toList := by
  have isQuote : OnOneLine ['"'] := onOneLine_singleton (by decide)
  have inside : OnOneLine (text.toList.flatMap escape) := by
    intro sign member
    obtain ⟨character, _, written⟩ := List.mem_flatMap.mp member
    exact (written_escape character).onOneLine sign written
  rw [toList_quoted]
  exact isQuote.append (inside.append isQuote)

/-- **Every string is read from its quoted text.** -/
theorem Reader.reads_string (text : String) (rest : List Char) :
    Reads levels string ((quoted text).toList ++ rest) text rest := by
  rw [toList_quoted, List.cons_append, List.append_assoc]
  refine (reads_skip _ _).bind (.get fun _ _ => ?_)
  have shorter := length_le_length_escaped text.toList
  have enough : text.toList.length < (text.toList.flatMap Json.escape ++ '"' :: rest).length + 1 := by
    rw [List.length_append]
    omega
  have isRead : Reads levels _ _ _ rest := reads_stringTail text.toList [] rest enough
  rwa [List.reverse_nil, List.nil_append, String.ofList_toList] at isRead

/-! ## Numbers -/

theorem valueOf_toDigits (number : ℕ) : valueOf (Nat.toDigits 10 number) = number := by
  have isValue : ∀ (digits : List Char) (start : ℕ),
      digits.foldl (fun value digit => value * 10 + (digit.toNat - 48)) start =
        Nat.ofDigitChars 10 digits start := by
    intro digits start
    simp only [Nat.ofDigitChars_eq_foldl, Nat.mul_comm]
    rfl
  rw [valueOf, isValue]
  exact Nat.ofDigitChars_toDigits (by decide) (by decide)

theorem isDigit_of_mem_toDigits {number : ℕ} :
    ∀ digit ∈ Nat.toDigits 10 number, isDigit digit = true :=
  fun _ member => Nat.isDigit_of_mem_toDigits (by decide) (by decide) member

/-- Only zero is written with a zero in front. -/
theorem head?_toDigits_ne {number : ℕ} (positive : number ≠ 0) :
    (Nat.toDigits 10 number).head? ≠ some '0' := by
  induction number using Nat.strong_induction_on with
  | _ number ih =>
      rw [Nat.toDigits_eq_if (by decide)]
      split_ifs with small
      · have each : ∀ digit < 10, digit ≠ 0 → Nat.digitChar digit ≠ '0' := by decide
        simpa using each number small positive
      · have shorter := ih (number / 10) (by omega) (by omega)
        obtain ⟨first, others, isText⟩ :=
          List.exists_cons_of_ne_nil (Nat.toDigits_ne_nil (b := 10) (n := number / 10))
        rw [isText] at shorter ⊢
        exact shorter

/-- Behind a zero in front nothing is written. -/
theorem eq_nil_of_toDigits {number : ℕ} {others : List Char}
    (isText : Nat.toDigits 10 number = '0' :: others) : others = [] := by
  have isZero : number = 0 := by
    by_contra positive
    exact head?_toDigits_ne positive (by rw [isText]; rfl)
  have zero : Nat.toDigits 10 0 = ['0'] := rfl
  rw [isZero, zero] at isText
  exact (List.cons.inj isText).2.symm

/-- A number is on one line. -/
theorem onOneLine_toDigits (number : ℕ) : OnOneLine (Nat.toDigits 10 number) := by
  intro digit member
  have isDigit := isDigit_of_mem_toDigits digit member
  rw [Reader.isDigit, Char.isDigit_iff_toNat] at isDigit
  exact Nat.le_trans (by decide : 0x20 ≤ '0'.toNat) isDigit.1

theorem Reader.reads_digits {run rest : List Char} (areDigits : ∀ digit ∈ run, isDigit digit = true)
    (stops : ∀ character ∈ rest.head?, isDigit character = false) :
    Reads levels digits (run ++ rest) run rest := by
  have noMore : rest.takeWhile isDigit = [] := by
    cases rest with
    | nil => rfl
    | cons character others => exact List.takeWhile_cons_of_neg (by simp [stops character rfl])
  have isRun : (run ++ rest).takeWhile isDigit = run := by
    rw [List.takeWhile_append_of_pos areDigits, noMore, List.append_nil]
  intro place depth _
  refine ⟨⟨place.line, place.column + run.length⟩, ?_⟩
  change EStateM.Result.ok _ _ = _
  rw [isRun, List.drop_left]

theorem Reader.reads_isAtDigit (text : List Char) :
    Reads levels isAtDigit text ((text.head?.map isDigit).getD false) text :=
  (reads_peek text).bind (.pure _)

/-- Digits that nothing goes on with are a whole number. -/
theorem Reader.reads_wholeNumber {written rest : List Char} {number : ℕ}
    (isValue : valueOf written = number) (small : number < Nat.pow 2 64) (ends : Ends rest) :
    Reads levels
      (do
        match ← peek with
        | some '.' => decimals false written
        | some 'e' | some 'E' => exponent false written 0
        | _ => wholeNumber false written)
      rest (.natural number) rest := by
  have whole : Reads levels (wholeNumber false written) rest (.natural number) rest := by
    rw [wholeNumber, isValue]
    simp only [Bool.not_false, Bool.true_and, small, decide_true, if_true]
    exact .pure _
  refine (reads_peek rest).bind ?_
  cases rest with
  | nil => exact whole
  | cons character others =>
      obtain ⟨_, noPoint, noSmall, noGreat⟩ := ends.not_number
      split
      · rename_i isPoint
        exact absurd (Option.some.inj isPoint) noPoint
      · rename_i isMark
        exact absurd (Option.some.inj isMark) noSmall
      · rename_i isMark
        exact absurd (Option.some.inj isMark) noGreat
      · exact whole

/-- **A whole number of 64 bits is read from its decimal digits.** -/
theorem Reader.reads_number {number : ℕ} (small : number < Nat.pow 2 64) {rest : List Char}
    (ends : Ends rest) :
    Reads levels Reader.number (Nat.toDigits 10 number ++ rest) (.natural number) rest := by
  have areDigits : ∀ digit ∈ Nat.toDigits 10 number, isDigit digit = true :=
    isDigit_of_mem_toDigits
  have isValue := valueOf_toDigits number
  obtain ⟨first, others, isText⟩ :=
    List.exists_cons_of_ne_nil (Nat.toDigits_ne_nil (b := 10) (n := number))
  have zeroAlone : first = '0' → others = [] := by
    rintro rfl
    exact eq_nil_of_toDigits isText
  rw [isText] at areDigits isValue ⊢
  obtain ⟨firstDigit, othersDigits⟩ := List.forall_mem_cons.mp areDigits
  have noSign : (some first == some '-') = false := by
    refine beq_eq_false_iff_ne.mpr fun same => ?_
    cases same
    revert firstDigit
    decide
  refine (reads_peek _).bind ?_
  rw [List.cons_append, List.head?_cons, noSign]
  refine (reads_next _ _).bind ?_
  simp only [firstDigit]
  refine (reads_isAtDigit _).bind ?_
  -- Behind a zero no digit may come; behind another digit all those that do are read.
  by_cases zero : first = '0'
  · obtain rfl := zeroAlone zero
    have noMore : (rest.head?.map isDigit).getD false = false := by
      cases rest with
      | nil => rfl
      | cons character others => exact ends.not_number.1
    simp only [zero, List.nil_append, noMore, Bool.and_false, Bool.false_eq_true, if_false,
      beq_self_eq_true, if_true]
    exact (Reads.pure []).bind (reads_wholeNumber (zero ▸ isValue) small ends)
  · have noZero : (first == '0') = false := beq_eq_false_iff_ne.mpr zero
    simp only [noZero, Bool.false_and, Bool.false_eq_true, if_false]
    exact (reads_digits othersDigits ends.not_digit).bind (reads_wholeNumber isValue small ends)

/-! ## Decoders of strings and numbers -/

namespace Decoder

/-- The first character of a value is seen behind the blanks. -/
theorem reads_valueStart {blanks : List Char} (areBlank : AreBlank blanks) {first : Char}
    (visible : isBlank first = false) (rest : List Char) :
    Reads levels valueStart (blanks ++ first :: rest) first (first :: rest) :=
  (reads_nextVisible_cons areBlank visible rest).bind (.pure first)

theorem takes_string (text : String) : Takes levels string.reader (quoted text).toList text where
  begins := ⟨'"', _, toList_quoted text, by decide, by decide⟩
  reads blanks rest areBlank _ := by
    have isString : Reads levels Reader.string ((quoted text).toList ++ rest) text rest :=
      reads_string text rest
    rw [toList_quoted] at isString ⊢
    exact (reads_valueStart areBlank (by decide) _).bind isString

/-- A number below the bound is taken for itself. -/
theorem takes_bounded {bound number : ℕ} (below : number < bound) (small : bound ≤ Nat.pow 2 64)
    (wanted : String) :
    Takes levels (bounded bound wanted).reader (Nat.toDigits 10 number) number := by
  obtain ⟨first, others, isText⟩ :=
    List.exists_cons_of_ne_nil (Nat.toDigits_ne_nil (b := 10) (n := number))
  have isFirst : isDigit first = true :=
    isDigit_of_mem_toDigits first (isText ▸ List.mem_cons_self)
  have visible : isBlank first = false ∧ first ≠ ']' := by
    constructor
    · cases blank : isBlank first with
      | false => rfl
      | true =>
          simp only [isBlank, Bool.or_eq_true, beq_iff_eq] at blank
          rcases blank with ((rfl | rfl) | rfl) | rfl
          all_goals cases isFirst
    · rintro rfl
      cases isFirst
  refine ⟨⟨first, others, isText, visible⟩, fun blanks rest areBlank ends => ?_⟩
  have isNumber : Reads levels Reader.number (Nat.toDigits 10 number ++ rest) (.natural number) rest :=
    reads_number (Nat.lt_of_lt_of_le below small) ends
  rw [isText] at isNumber ⊢
  refine (reads_valueStart areBlank visible.1 _).bind ?_
  simp only [isFirst, Bool.or_true, if_true]
  refine (isNumber.bind ?_).placed
  simp only [boundedOf, below, if_true]
  exact .pure number

/-- What a decoder takes for a value, one that changes its values takes for the changed value. -/
theorem takes_map {α β : Type} {decoder : Decoder α} {text : List Char} {value : α}
    (takes : Takes levels decoder.reader text value) (f : α → β) :
    Takes levels (map f decoder).reader text (f value) where
  begins := takes.begins
  reads blanks rest areBlank ends := (takes.reads blanks rest areBlank ends).bind (.pure _)

end Decoder

end SampleMethods.Json
