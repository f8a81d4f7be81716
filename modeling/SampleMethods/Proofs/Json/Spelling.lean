import SampleMethods.Proofs.Json.Success

/-!
# Strings and numbers of documents

A string of a document is read just if its parts stand for a text, and then it is read as that
text (`reads_string_of_standFor`, `onlyGives_string`). What is read of a number ends where the
number ends, whatever comes out (`onlyGives_number`).
-/

set_option autoImplicit false

namespace SampleMethods.Json

open Reader Document

variable {levels : ℕ} {rest : List Char}

/-! ## Surrogate pairs -/

theorem Reader.reads_pairMark (wanted : Char) (rest : List Char) :
    Reads levels (pairMark wanted) (wanted :: rest) () rest := by
  refine (reads_peek _).bind ((reads_skip wanted rest).bind ?_)
  simp only [beq_self_eq_true, if_true]
  exact .pure ()

/-- Nothing else is taken for the mark. -/
theorem Reader.onlyGives_pairMark {wanted : Char} {text : List Char}
    {property : Unit → List Char → Prop} (differs : text.head? ≠ some wanted) :
    OnlyGives (pairMark wanted) text property := by
  refine (reads_peek text).goesOn.onlyGives ?_
  cases text with
  | nil => exact onlyGives_fail _
  | cons character others =>
      have noMark : (character == wanted) = false :=
        beq_eq_false_iff_ne.mpr fun same => differs (congrArg some same)
      refine (reads_skip character others).goesOn.onlyGives ?_
      simp only [noMark, Bool.false_eq_true, if_false]
      exact onlyGives_fail _

/-! ## Escapes by codes -/

namespace Document.CodeUnit

variable (unit : CodeUnit)

theorem reads_hexFour (rest : List Char) :
    Reads levels hexFour (unit.text ++ rest) unit.code rest :=
  Reader.reads_hexFour unit.first.isValue unit.second.isValue unit.third.isValue
    unit.fourth.isValue rest

variable {unit} {low : CodeUnit} {property : Char → List Char → Prop}

theorem lt_or_lt_eq_not_isLow :
    (decide (unit.code < 0xDC00) || decide (0xDFFF < unit.code)) = !unit.isLow := by
  simp only [isLow, Bool.not_and, ← decide_not, Nat.not_le]

theorem lt_or_lt_eq_not_isHigh :
    (decide (unit.code < 0xD800) || decide (0xDBFF < unit.code)) = !unit.isHigh := by
  rw [isHigh, Bool.not_not]

theorem isLow_of_isHigh (high : unit.isHigh = true) : unit.isLow = false := by
  rw [isHigh, Bool.not_eq_true', Bool.or_eq_false_iff, decide_eq_false_iff_not,
    decide_eq_false_iff_not] at high
  rw [isLow, Bool.and_eq_false_iff, decide_eq_false_iff_not]
  omega

/-- A code that is no half of a pair is read as its character. -/
theorem reads_codePoint_alone (notHigh : unit.isHigh = false) (notLow : unit.isLow = false) :
    Reads levels codePoint (unit.text ++ rest) (Char.ofNat unit.code) rest := by
  refine (unit.reads_hexFour rest).bind ?_
  rw [isLow] at notLow
  simp only [notLow, lt_or_lt_eq_not_isHigh, notHigh, Bool.not_false, Bool.false_eq_true, if_false,
    if_true]
  exact .pure _

/-- The second half of a pair cannot be read in front. -/
theorem onlyGives_codePoint_of_isLow (isLow : unit.isLow = true) :
    OnlyGives codePoint (unit.text ++ rest) property := by
  refine (unit.reads_hexFour rest).goesOn.onlyGives ?_
  rw [CodeUnit.isLow] at isLow
  simp only [isLow, if_true]
  exact (onlyGives_fail _).stop

/-- The first half of a pair wants a second half. -/
theorem goesOn_codePoint_of_isHigh (high : unit.isHigh = true) :
    GoesOn levels codePoint (unit.text ++ rest)
      (do
        pairMark '\\'
        pairMark 'u'
        let second ← hexFour
        if second < 0xDC00 || 0xDFFF < second then
          fail .loneSurrogate
        return Char.ofNat ((unit.code - 0xD800) * 0x400 + (second - 0xDC00) + 0x10000)) rest := by
  refine (unit.reads_hexFour rest).goesOn.trans ?_
  have notLow := isLow_of_isHigh high
  rw [isLow] at notLow
  simp only [notLow, lt_or_lt_eq_not_isHigh, high, Bool.not_true, Bool.false_eq_true, if_false]
  exact .refl _ _

/-- Two halves of a pair are read as the character of the pair. -/
theorem reads_codePoint_pair (high : unit.isHigh = true) (isLow : low.isLow = true) :
    Reads levels codePoint (unit.text ++ '\\' :: 'u' :: (low.text ++ rest)) (unit.pairWith low)
      rest := by
  refine (goesOn_codePoint_of_isHigh high).reads
    ((reads_pairMark _ _).bind ((reads_pairMark _ _).bind ((low.reads_hexFour rest).bind ?_)))
  simp only [lt_or_lt_eq_not_isLow, isLow, Bool.not_true, Bool.false_eq_true, if_false]
  exact .pure _

/-- A first half is not read with a code that is no second half. -/
theorem onlyGives_codePoint_pair (high : unit.isHigh = true) (notLow : low.isLow = false) :
    OnlyGives codePoint (unit.text ++ '\\' :: 'u' :: (low.text ++ rest)) property := by
  refine (goesOn_codePoint_of_isHigh high).onlyGives
    ((reads_pairMark _ _).goesOn.onlyGives ((reads_pairMark _ _).goesOn.onlyGives
      ((low.reads_hexFour rest).goesOn.onlyGives ?_)))
  simp only [lt_or_lt_eq_not_isLow, notLow, Bool.not_false, if_true]
  exact (onlyGives_fail _).stop

/-- A first half is not read without an escape by a code behind it. -/
theorem onlyGives_codePoint_alone (high : unit.isHigh = true)
    (noEscape : ∀ behind, rest ≠ '\\' :: 'u' :: behind) :
    OnlyGives codePoint (unit.text ++ rest) property := by
  refine (goesOn_codePoint_of_isHigh high).onlyGives ?_
  by_cases isBackslash : rest.head? = some '\\'
  · obtain ⟨others, rfl⟩ := List.head?_eq_some_iff.mp isBackslash
    refine (reads_pairMark _ others).goesOn.onlyGives ?_
    have noMark : others.head? ≠ some 'u' := fun isMark => by
      obtain ⟨behind, rfl⟩ := List.head?_eq_some_iff.mp isMark
      exact noEscape behind rfl
    exact (onlyGives_pairMark noMark).stop
  · exact (onlyGives_pairMark isBackslash).stop

end Document.CodeUnit

/-! ## Strings -/

namespace Document

variable {rounds : ℕ} {read : List Char} {pieces : List Piece}

/-- The reader of a string goes on behind a character that stands for itself. -/
theorem goesOn_stringTail_plain {character : Char} (noQuote : character ≠ '"')
    (noBackslash : character ≠ '\\') (noControl : ¬character.toNat < 0x20) (rest : List Char) :
    GoesOn levels (stringTail (rounds + 1) read) (character :: rest)
      (stringTail rounds (character :: read)) rest := by
  refine (reads_next character rest).goesOn.trans ?_
  split
  · rename_i isNone
    cases isNone
  · rename_i isQuote
    exact absurd (Option.some.inj isQuote) noQuote
  · rename_i isBackslash
    exact absurd (Option.some.inj isBackslash) noBackslash
  · rename_i other _ _ isOther
    cases isOther
    rw [if_neg noControl]
    exact .refl _ _

/-- The reader of a string goes on behind an escape. -/
theorem goesOn_stringTail_escape {character : Char} {text : List Char}
    (isEscape : Reads levels Reader.escape text character rest) :
    GoesOn levels (stringTail (rounds + 1) read) ('\\' :: text)
      (stringTail rounds (character :: read)) rest :=
  (reads_next '\\' text).goesOn.trans isEscape.goesOn

theorem reads_escape_letter {name character : Char}
    (isNamed : (name, character) ∈ ('/', '/') :: named) (rest : List Char) :
    Reads levels Reader.escape (name :: rest) character rest := by
  refine (reads_next name rest).bind ?_
  simp only [named, List.mem_cons, Prod.mk.injEq, List.not_mem_nil, or_false] at isNamed
  rcases isNamed with ⟨rfl, rfl⟩ | ⟨rfl, rfl⟩ | ⟨rfl, rfl⟩ | ⟨rfl, rfl⟩ | ⟨rfl, rfl⟩ |
    ⟨rfl, rfl⟩ | ⟨rfl, rfl⟩ | ⟨rfl, rfl⟩
  all_goals exact .pure _

/-- The reader of a string goes on behind a code that is no half of a pair. -/
theorem goesOn_stringTail_alone {unit : CodeUnit} (notHigh : unit.isHigh = false)
    (notLow : unit.isLow = false) (rest : List Char) :
    GoesOn levels (stringTail (rounds + 1) read) ('\\' :: 'u' :: (unit.text ++ rest))
      (stringTail rounds (Char.ofNat unit.code :: read)) rest :=
  goesOn_stringTail_escape
    ((reads_next 'u' _).bind (CodeUnit.reads_codePoint_alone notHigh notLow))

/-- The end of a string is read with the characters behind those that were read before, or it
cannot be read. -/
def TailIs (levels rounds : ℕ) (read text rest : List Char) : Option (List Char) → Prop
  | some characters =>
    Reads levels (stringTail rounds read) text (String.ofList (read.reverse ++ characters)) rest
  | none => OnlyGives (stringTail rounds read) text fun _ _ => False

theorem TailIs.cons {character : Char} {text further : List Char} {characters : Option (List Char)}
    (goesOn : ∀ levels, GoesOn levels (stringTail (rounds + 1) read) text
      (stringTail rounds (character :: read)) further)
    (tail : TailIs levels rounds (character :: read) further rest characters) :
    TailIs levels (rounds + 1) read text rest (characters.map (character :: ·)) := by
  cases characters with
  | none =>
      have never : OnlyGives _ further fun _ _ => False := tail
      exact (goesOn 0).onlyGives never
  | some characters =>
      have reads : Reads levels _ _ _ rest := (goesOn levels).reads tail
      rwa [List.reverse_cons, List.append_assoc] at reads

/-- An escape that cannot be read ends the reading of a string. -/
theorem TailIs.stop {text : List Char}
    (never : OnlyGives codePoint text fun _ _ => False) :
    TailIs levels (rounds + 1) read ('\\' :: 'u' :: text) rest none := by
  have noEscape : OnlyGives Reader.escape ('u' :: text) fun _ _ => False :=
    (reads_next 'u' text).goesOn.onlyGives never
  have noTail : OnlyGives (stringTail (rounds + 1) read) ('\\' :: 'u' :: text) fun _ _ => False :=
    GoesOn.onlyGives (reads_next '\\' _).goesOn (OnlyGives.stop noEscape)
  exact noTail

/-- Without a code in front, the parts of a string and its closing quote do not begin with an
escape by a code. -/
theorem not_escape_of_not_code (noCode : ∀ low others, pieces = .code low :: others → False)
    (behind : List Char) :
    pieces.flatMap Piece.text ++ '"' :: rest ≠ '\\' :: 'u' :: behind := by
  intro same
  cases pieces with
  | nil => cases same
  | cons piece pieces =>
      cases piece with
      | plain character _ noBackslash _ => exact noBackslash (List.cons.inj same).1
      | letter name character isNamed =>
          obtain rfl : name = 'u' := (List.cons.inj (List.cons.inj same).2).1
          simp [named] at isNamed
      | code unit => exact noCode unit pieces rfl

/-- With more rounds than parts there is a round to begin with. -/
theorem exists_round {count : ℕ} (enough : count < rounds) : ∃ fewer, rounds = fewer + 1 :=
  Nat.exists_eq_add_one.mpr (Nat.zero_lt_of_lt enough)

/-- **A string is read part by part, as the characters that its parts stand for.** -/
theorem tailIs (enough : pieces.length < rounds) :
    TailIs levels rounds read (pieces.flatMap Piece.text ++ '"' :: rest) rest
      (characters? pieces) := by
  induction pieces using characters?.induct generalizing rounds read with
  | case1 =>
      obtain ⟨rounds, rfl⟩ := exists_round enough
      have done : Reads levels (stringTail (rounds + 1) read) ('"' :: rest)
          (String.ofList read.reverse) rest := (reads_next '"' rest).bind (.pure _)
      rw [characters?, TailIs, List.append_nil]
      exact done
  | case2 character noQuote noBackslash noControl pieces ih =>
      obtain ⟨rounds, rfl⟩ := exists_round enough
      rw [characters?]
      exact .cons (fun levels => goesOn_stringTail_plain noQuote noBackslash noControl _)
        (ih (Nat.lt_of_succ_lt_succ enough))
  | case3 name character isNamed pieces ih =>
      obtain ⟨rounds, rfl⟩ := exists_round enough
      rw [characters?]
      exact .cons (fun levels => goesOn_stringTail_escape (reads_escape_letter isNamed _))
        (ih (Nat.lt_of_succ_lt_succ enough))
  | case4 unit low pieces high isLow ih =>
      obtain ⟨rounds, rfl⟩ := exists_round enough
      rw [characters?, if_pos high, if_pos isLow]
      refine .cons (fun levels => ?_)
        (ih (Nat.lt_of_succ_lt (Nat.lt_of_succ_lt_succ enough)))
      have isPair : Reads levels codePoint _ (unit.pairWith low)
          (pieces.flatMap Piece.text ++ '"' :: rest) := CodeUnit.reads_codePoint_pair high isLow
      exact goesOn_stringTail_escape ((reads_next 'u' _).bind isPair)
  | case5 unit low pieces high notLow =>
      obtain ⟨rounds, rfl⟩ := exists_round enough
      rw [characters?, if_pos high, if_neg notLow]
      exact .stop (CodeUnit.onlyGives_codePoint_pair high (Bool.eq_false_iff.mpr notLow))
  | case6 unit low pieces notHigh isLow =>
      obtain ⟨rounds, rfl⟩ := exists_round enough
      rw [characters?, if_neg notHigh, if_pos isLow]
      exact .stop (CodeUnit.onlyGives_codePoint_of_isLow isLow)
  | case7 unit low pieces notHigh notLow ih =>
      obtain ⟨rounds, rfl⟩ := exists_round enough
      rw [characters?, if_neg notHigh, if_neg notLow]
      exact .cons (fun levels => goesOn_stringTail_alone (Bool.eq_false_iff.mpr notHigh)
        (Bool.eq_false_iff.mpr notLow) _) (ih (Nat.lt_of_succ_lt_succ enough))
  | case8 unit pieces noCode half =>
      obtain ⟨rounds, rfl⟩ := exists_round enough
      rw [characters?, if_pos half]
      · cases high : unit.isHigh with
        | true =>
            exact .stop (CodeUnit.onlyGives_codePoint_alone high
              (not_escape_of_not_code noCode))
        | false =>
            rw [high, Bool.false_or] at half
            exact .stop (CodeUnit.onlyGives_codePoint_of_isLow half)
      · exact noCode
  | case9 unit pieces noCode whole ih =>
      obtain ⟨rounds, rfl⟩ := exists_round enough
      rw [characters?, if_neg whole]
      · rw [Bool.not_eq_true, Bool.or_eq_false_iff] at whole
        exact .cons (fun levels => goesOn_stringTail_alone whole.1 whole.2 _)
          (ih (Nat.lt_of_succ_lt_succ enough))
      · exact noCode

theorem length_le_length_pieces (pieces : List Piece) :
    pieces.length ≤ (pieces.flatMap Piece.text).length := by
  induction pieces with
  | nil => exact Nat.le_refl 0
  | cons piece pieces ih =>
      have written : 0 < piece.text.length := by
        cases piece with
        | plain => exact Nat.succ_pos _
        | letter => exact Nat.succ_pos _
        | code => exact Nat.succ_pos _
      rw [List.flatMap_cons, List.length_append, List.length_cons]
      omega

theorem tailIs_string (pieces : List Piece) (rest : List Char) :
    TailIs levels ((pieces.flatMap Piece.text ++ '"' :: rest).length + 1) []
      (pieces.flatMap Piece.text ++ '"' :: rest) rest (characters? pieces) := by
  have shorter := length_le_length_pieces pieces
  refine tailIs ?_
  rw [List.length_append]
  omega

theorem stringText_append (pieces : List Piece) (rest : List Char) :
    stringText pieces ++ rest = '"' :: (pieces.flatMap Piece.text ++ '"' :: rest) := by
  simp [stringText]

/-- A string whose parts stand for a text is read as the text. -/
theorem reads_string_of_standFor {text : String} (standFor : StandFor pieces text)
    (rest : List Char) : Reads levels Reader.string (stringText pieces ++ rest) text rest := by
  have tail : TailIs levels _ [] _ rest (characters? pieces) := tailIs_string pieces rest
  rw [standFor, TailIs, List.reverse_nil, List.nil_append, String.ofList_toList] at tail
  rw [stringText_append]
  exact (reads_skip _ _).bind (.get fun _ _ => tail)

/-- **A string is read only as the text that its parts stand for.** -/
theorem onlyGives_string (pieces : List Piece) (rest : List Char) :
    OnlyGives Reader.string (stringText pieces ++ rest) (UpTo rest (StandFor pieces)) := by
  cases isText : characters? pieces with
  | some characters =>
      have standFor : StandFor pieces (String.ofList characters) := by
        rw [StandFor, isText, String.toList_ofList]
      exact (reads_string_of_standFor standFor rest).onlyGives ⟨rfl, standFor⟩
  | none =>
      have tail : TailIs 0 _ [] _ rest (characters? pieces) := tailIs_string pieces rest
      rw [isText] at tail
      rw [stringText_append]
      have never : OnlyGives (stringTail _ []) (pieces.flatMap Piece.text ++ '"' :: rest)
          fun _ _ => False := tail
      exact (reads_skip _ _).goesOn.onlyGives
        (.get fun _ _ _ => never.mono fun _ _ impossible => impossible.elim)

/-! ## Numbers -/

/-- What may stand behind the digits of a number. -/
def NoDigits (rest : List Char) : Prop :=
  ∀ character ∈ rest.head?, isDigit character = false

theorem Digits.reads (run : Digits) (stops : NoDigits rest) :
    Reads levels Reader.digits (run.text ++ rest) run.text rest :=
  reads_digits run.areDigits stops

theorem onlyGives_fraction (negative : Bool) (written : List Char) (scale : Int)
    (text : List Char) :
    OnlyGives (fraction negative written scale) text (UpTo text fun _ => True) := by
  rw [fraction]
  cases Double.ofDecimal? negative ⟨valueOf written, scale⟩ with
  | some value => exact .pure ⟨rfl, trivial⟩
  | none => exact onlyGives_fail _

theorem onlyGives_wholeNumber (negative : Bool) (written text : List Char) :
    OnlyGives (wholeNumber negative written) text (UpTo text fun _ => True) := by
  rw [wholeNumber]
  split_ifs
  · exact .pure ⟨rfl, trivial⟩
  · exact .pure ⟨rfl, trivial⟩
  · exact onlyGives_fraction _ _ _ _

theorem Digits.isDigit_first (run : Digits) : isDigit run.first = true :=
  run.areDigits _ List.mem_cons_self

theorem Digits.reads_others (run : Digits) (stops : NoDigits rest) :
    Reads levels Reader.digits (run.others ++ rest) run.others rest :=
  reads_digits (fun digit isOther => run.areDigits digit (List.mem_cons_of_mem _ isOther)) stops

theorem onlyGives_exponent (negative : Bool) (written : List Char) (scale : Int)
    (exponent : Exponent) (stops : NoDigits rest) :
    OnlyGives (Reader.exponent negative written scale) (exponent.text ++ rest)
      (UpTo rest fun _ => True) := by
  have isFirst := exponent.size.isDigit_first
  rw [Exponent.text, List.cons_append, List.append_assoc]
  refine (reads_skip exponent.mark _).goesOn.onlyGives ((reads_peek _).goesOn.onlyGives ?_)
  cases isSign : exponent.sign
  case' none =>
    rw [Option.toList_none, List.nil_append, Digits.text, List.cons_append, List.head?_cons]
    split
    · rename_i isSame
      rw [Option.some.inj isSame] at isFirst
      cases isFirst
    · rename_i isSame
      rw [Option.some.inj isSame] at isFirst
      cases isFirst
    refine (Reads.pure false).goesOn.onlyGives ?_
  case' some sign =>
    rcases exponent.isSign sign isSign with rfl | rfl
    on_goal 1 => refine (reads_skip '+' _).goesOn.onlyGives ((Reads.pure false).goesOn.onlyGives ?_)
    on_goal 2 => refine (reads_skip '-' _).goesOn.onlyGives ((Reads.pure true).goesOn.onlyGives ?_)
  -- Whatever the sign, the size stands behind it.
  all_goals
    refine (reads_next exponent.size.first _).goesOn.onlyGives ?_
    simp only [isFirst, if_true]
    exact (exponent.size.reads_others stops).goesOn.onlyGives (onlyGives_fraction _ _ _ _)

theorem Number.noDigits_exponentText (number : Number) (ends : Ends rest) :
    NoDigits (number.exponentText ++ rest) := by
  rw [Number.exponentText]
  cases number.exponent with
  | none => exact ends.not_digit
  | some exponent =>
      rintro character ⟨⟩
      rcases exponent.isMark with isMark | isMark
      all_goals exact isMark ▸ rfl

theorem Number.noDigits_decimalText (number : Number) (ends : Ends rest) :
    NoDigits (number.decimalText ++ (number.exponentText ++ rest)) := by
  rw [Number.decimalText]
  cases number.decimals with
  | none => exact number.noDigits_exponentText ends
  | some run =>
      rintro character ⟨⟩
      rfl

/-- Behind the digits behind its point, a number goes on with an exponent, or it ends. -/
theorem onlyGives_behindPlaces {negative : Bool} {written : List Char} {scale : Int}
    (number : Number) (ends : Ends rest) :
    OnlyGives (do
        match ← peek with
        | some 'e' | some 'E' => Reader.exponent negative written scale
        | _ => fraction negative written scale)
      (number.exponentText ++ rest) (UpTo rest fun _ => True) := by
  refine (reads_peek _).goesOn.onlyGives ?_
  have last := onlyGives_fraction negative written scale rest
  rw [Number.exponentText]
  cases number.exponent with
  | none =>
      cases rest with
      | nil => exact last
      | cons character others =>
          obtain ⟨_, _, noSmall, noGreat⟩ := ends.not_number
          rw [List.nil_append, List.head?_cons]
          split
          · rename_i isMark
            exact absurd (Option.some.inj isMark) noSmall
          · rename_i isMark
            exact absurd (Option.some.inj isMark) noGreat
          · exact last
  | some exponent =>
      have gives := onlyGives_exponent negative written scale exponent ends.not_digit
      rcases exponent with ⟨mark, sign, size, rfl | rfl, isSign⟩
      · exact gives
      · exact gives

theorem onlyGives_decimals {negative : Bool} {whole : List Char} (number : Number) (run : Digits)
    (ends : Ends rest) :
    OnlyGives (decimals negative whole) ('.' :: (run.text ++ (number.exponentText ++ rest)))
      (UpTo rest fun _ => True) := by
  refine (reads_skip '.' _).goesOn.onlyGives
    ((run.reads (number.noDigits_exponentText ends)).goesOn.onlyGives ?_)
  exact onlyGives_behindPlaces number ends

/-- Behind its whole part, a number goes on with a point or an exponent, or it ends. -/
theorem onlyGives_behindWhole {negative : Bool} {whole : List Char} (number : Number)
    (ends : Ends rest) :
    OnlyGives (do
        match ← peek with
        | some '.' => decimals negative whole
        | some 'e' | some 'E' => Reader.exponent negative whole 0
        | _ => wholeNumber negative whole)
      (number.decimalText ++ (number.exponentText ++ rest)) (UpTo rest fun _ => True) := by
  refine (reads_peek _).goesOn.onlyGives ?_
  rw [Number.decimalText]
  cases number.decimals with
  | some run => exact onlyGives_decimals number run ends
  | none =>
      have last := onlyGives_wholeNumber negative whole rest
      rw [Number.exponentText]
      cases number.exponent with
      | none =>
          cases rest with
          | nil => exact last
          | cons character others =>
              obtain ⟨_, noPoint, noSmall, noGreat⟩ := ends.not_number
              rw [List.nil_append, List.nil_append, List.head?_cons]
              split
              · rename_i isPoint
                exact absurd (Option.some.inj isPoint) noPoint
              · rename_i isMark
                exact absurd (Option.some.inj isMark) noSmall
              · rename_i isMark
                exact absurd (Option.some.inj isMark) noGreat
              · exact last
      | some exponent =>
          have gives := onlyGives_exponent negative whole 0 exponent ends.not_digit
          rcases exponent with ⟨mark, sign, size, rfl | rfl, isSign⟩
          · exact gives
          · exact gives

theorem onlyGives_unsigned (negative : Bool) (number : Number) (ends : Ends rest) :
    OnlyGives (unsigned negative)
      (number.whole.text ++ (number.decimalText ++ (number.exponentText ++ rest)))
      (UpTo rest fun _ => True) := by
  have behindWhole := number.noDigits_decimalText ends
  refine (reads_next number.whole.first _).goesOn.onlyGives ?_
  simp only [number.whole.isDigit_first, if_true]
  refine (reads_isAtDigit _).goesOn.onlyGives ?_
  by_cases zero : number.whole.first = '0'
  · have noMore : ((number.decimalText ++ (number.exponentText ++ rest)).head?.map isDigit).getD
        false = false := by
      cases isHead : (number.decimalText ++ (number.exponentText ++ rest)).head? with
      | none => rfl
      | some character => exact behindWhole character isHead
    simp only [number.zeroAlone zero, zero, List.append_eq, List.nil_append, noMore, Bool.and_false,
      Bool.false_eq_true, if_false, beq_self_eq_true, if_true]
    exact (Reads.pure []).goesOn.onlyGives (onlyGives_behindWhole number ends)
  · have noZero : (number.whole.first == '0') = false := beq_eq_false_iff_ne.mpr zero
    simp only [noZero, Bool.false_and, Bool.false_eq_true, if_false]
    exact (number.whole.reads_others behindWhole).goesOn.onlyGives
      (onlyGives_behindWhole number ends)

/-- **What is read of a number ends where the number ends.** -/
theorem onlyGives_number (number : Number) (ends : Ends rest) :
    OnlyGives Reader.number (number.text ++ rest) (UpTo rest fun _ => True) := by
  have gives (negative : Bool) := onlyGives_unsigned negative number ends
  refine (reads_peek _).goesOn.onlyGives ?_
  rw [Number.text, List.append_assoc, List.append_assoc, List.append_assoc]
  cases number.isNegative with
  | true => exact (reads_skip '-' _).goesOn.onlyGives (gives true)
  | false =>
      have noSign : (some number.whole.first == some '-') = false := by
        refine beq_eq_false_iff_ne.mpr fun same => ?_
        have isDigit := number.whole.isDigit_first
        rw [Option.some.inj same] at isDigit
        cases isDigit
      rw [if_neg Bool.false_ne_true, List.nil_append, Digits.text, List.cons_append,
        List.head?_cons, noSign]
      exact gives false

end Document

end SampleMethods.Json
