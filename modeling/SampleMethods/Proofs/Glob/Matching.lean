import Mathlib.Data.List.Infix
import SampleMethods.Glob.Matching

/-!
# What patterns stand for

A pattern stands for texts: each of its tokens for a part of the text, one behind the
other (`StandFor`). Matching follows the ends that may be left of a text, and each end is
followed once, however many ways lead to it. That finds exactly the texts that the tokens
stand for (`mem_restsOf_iff`), and so a path matches a pattern just if the tokens of the
pattern stand for its bytes, apart from the two kinds of patterns that are looked up in
another way (`isMatch_iff`).
-/

set_option autoImplicit false

namespace SampleMethods.Glob

open Text (Bytes bytesOf encode slash)

/-! ## What tokens stand for -/

mutual

/-- The token stands for the text. -/
def Token.StandsFor : Token → Bytes → Prop
  | .literal character, text => text = bytesOf character
  | .any, text => ∃ byte, text = [byte]
  | .many, _ => True
  | .leadingSteps, text => text = [] ∨ [slash] <:+ text
  | .trailingSteps, text => [slash] <+: text
  | .innerSteps, text => [slash] <+: text ∧ [slash] <:+ text
  | .oneOf negated ranges, text => ∃ byte, text = [byte] ∧ isInClass negated ranges byte = true
  | .alternatives branches, text =>
    areVoid branches = true ∧ text = [] ∨ OneStandsFor branches text

/-- The tokens stand for the parts of the text, one behind the other. -/
def StandFor : List Token → Bytes → Prop
  | [], text => text = []
  | token :: tokens, text =>
    ∃ front back, front ++ back = text ∧ token.StandsFor front ∧ StandFor tokens back

/-- One of the branches that stand for something stands for the text. -/
def OneStandsFor : List (List Token) → Bytes → Prop
  | [], _ => False
  | branch :: branches, text =>
    isVoid branch = false ∧ StandFor branch text ∨ OneStandsFor branches text

end

/-! ## Ends of texts -/

section Ends

variable {text rest : Bytes}

theorem mem_endsOf_iff : rest ∈ endsOf text ↔ rest <:+ text := by
  induction text with
  | nil => simp [endsOf]
  | cons byte text ih => rw [endsOf, List.mem_cons, ih, List.suffix_cons_iff]

theorem mem_endsBehindSlash_iff : rest ∈ endsBehindSlash text ↔ slash :: rest <:+ text := by
  induction text with
  | nil => simp [endsBehindSlash]
  | cons byte text ih =>
      rw [endsBehindSlash, List.suffix_cons_iff, List.cons.injEq, ← ih]
      by_cases isSlash : byte = slash
      · simp [isSlash]
      · simp [isSlash, Ne.symm isSlash]

theorem behind?_eq_some_iff {wanted : Bytes} :
    behind? wanted text = some rest ↔ wanted ++ rest = text := by
  induction wanted generalizing text with
  | nil => simp [behind?, eq_comm]
  | cons first wanted ih =>
      cases text with
      | nil => simp [behind?]
      | cons byte text =>
          rw [behind?]
          by_cases same : first = byte
          · simp [same, ih]
          · simp [same]

/-- Ends of one text that are equally long are the same. -/
theorem eq_of_suffix {whole first second : Bytes} (isFirst : first <:+ whole)
    (isSecond : second <:+ whole) (sameLength : first.length = second.length) : first = second :=
  (List.suffix_of_suffix_length_le isFirst isSecond sameLength.le).eq_of_length sameLength

/-- No end of a text is lost where each length is kept once. -/
theorem mem_distinct_iff {whole : Bytes} {ends : List Bytes}
    (areEnds : ∀ part ∈ ends, part <:+ whole) : rest ∈ distinct ends ↔ rest ∈ ends := by
  induction ends generalizing rest with
  | nil => rfl
  | cons part ends ih =>
      obtain ⟨isEnd, areEnds⟩ := List.forall_mem_cons.mp areEnds
      have unfolded : distinct (part :: ends) =
          if (distinct ends).any (·.length == part.length) then distinct ends
          else part :: distinct ends := rfl
      rw [unfolded, List.mem_cons]
      split_ifs with repeated
      · obtain ⟨other, isOther, sameLength⟩ := List.any_eq_true.mp repeated
        have isOther := (ih areEnds).mp isOther
        have same : other = part :=
          eq_of_suffix (areEnds other isOther) isEnd (by simpa using sameLength)
        rw [ih areEnds, or_iff_right_of_imp fun isPart => by rwa [isPart, ← same]]
      · rw [List.mem_cons, ih areEnds]

end Ends

/-! ## Tokens and ends -/

/-- A text that ends behind a slash is left behind steps. -/
theorem exists_steps_iff {text rest : Bytes} :
    (∃ front, front ++ rest = text ∧ [slash] <:+ front) ↔ slash :: rest <:+ text := by
  constructor
  · rintro ⟨_, rfl, before, rfl⟩
    exact ⟨before, by simp⟩
  · rintro ⟨before, rfl⟩
    exact ⟨before ++ [slash], by simp, before, rfl⟩

/-- A text that begins with a slash is left anywhere behind it. -/
theorem exists_behindSlash_iff {text rest : Bytes} :
    (∃ front, front ++ rest = text ∧ [slash] <+: front) ↔
      ∃ behind, text = slash :: behind ∧ rest <:+ behind := by
  constructor
  · rintro ⟨_, rfl, front, rfl⟩
    exact ⟨front ++ rest, rfl, List.suffix_append front rest⟩
  · rintro ⟨_, rfl, front, rfl⟩
    exact ⟨slash :: front, rfl, front, rfl⟩

/-- Between two slashes there are steps, or the slashes are the same one. -/
theorem exists_betweenSlashes_iff {text rest : Bytes} :
    (∃ front, front ++ rest = text ∧ [slash] <+: front ∧ [slash] <:+ front) ↔
      ∃ behind, text = slash :: behind ∧ (rest = behind ∨ slash :: rest <:+ behind) := by
  constructor
  · rintro ⟨_, rfl, ⟨front, rfl⟩, isEnd⟩
    refine ⟨front ++ rest, rfl, ?_⟩
    rcases List.suffix_cons_iff.mp isEnd with alone | isEnd
    · obtain rfl : front = [] := by simpa using alone
      exact .inl rfl
    · exact .inr (exists_steps_iff.mp ⟨front, rfl, isEnd⟩)
  · rintro ⟨behind, rfl, rfl | isLeft⟩
    · exact ⟨[slash], rfl, List.prefix_rfl, List.suffix_rfl⟩
    · obtain ⟨front, rfl, isEnd⟩ := exists_steps_iff.mpr isLeft
      exact ⟨slash :: front, rfl, ⟨front, rfl⟩, isEnd.trans (List.suffix_cons slash front)⟩

/-- A single byte is gone over. -/
theorem exists_single_iff {text rest : Bytes} {property : UInt8 → Prop} :
    (∃ front, front ++ rest = text ∧ ∃ byte, front = [byte] ∧ property byte) ↔
      ∃ byte, text = byte :: rest ∧ property byte := by
  constructor
  · rintro ⟨_, rfl, byte, rfl, holds⟩
    exact ⟨byte, rfl, holds⟩
  · rintro ⟨byte, rfl, holds⟩
    exact ⟨[byte], rfl, byte, rfl, holds⟩

/-- Where every branch is void, none of them stands for anything. -/
theorem not_oneStandsFor_of_void {branches : List (List Token)} {text : Bytes}
    (void : areVoid branches = true) : ¬OneStandsFor branches text := by
  induction branches with
  | nil => simp [OneStandsFor]
  | cons branch branches ih =>
      rw [areVoid, Bool.and_eq_true] at void
      simp [OneStandsFor, void.1, ih void.2]

mutual

/-- What may be left behind a token is what is left of a text that begins with something the token
stands for. -/
theorem mem_restsOfToken_iff {text rest : Bytes} : ∀ token : Token,
    rest ∈ restsOfToken token text ↔ ∃ front, front ++ rest = text ∧ token.StandsFor front
  | .literal character => by
      simp only [restsOfToken, Option.mem_toList, behind?_eq_some_iff, Token.StandsFor]
      exact ⟨fun same => ⟨_, same, rfl⟩, fun ⟨_, same, isFront⟩ => isFront ▸ same⟩
  | .any => by
      simp only [Token.StandsFor, restsOfToken]
      cases text with
      | nil => simp
      | cons byte text => simp [eq_comm]
  | .many => by
      simp only [restsOfToken, mem_endsOf_iff, Token.StandsFor, and_true]
      rfl
  | .leadingSteps => by
      rw [restsOfToken, List.mem_cons, mem_endsBehindSlash_iff, ← exists_steps_iff]
      simp only [Token.StandsFor, and_or_left, exists_or]
      exact or_congr_left (by simp [eq_comm])
  | .trailingSteps => by
      simp only [Token.StandsFor, exists_behindSlash_iff, restsOfToken]
      cases text with
      | nil => simp
      | cons byte text => by_cases isSlash : byte = slash <;> simp [isSlash, mem_endsOf_iff]
  | .innerSteps => by
      simp only [Token.StandsFor, exists_betweenSlashes_iff, restsOfToken]
      cases text with
      | nil => simp
      | cons byte text =>
          by_cases isSlash : byte = slash <;> simp [isSlash, mem_endsBehindSlash_iff]
  | .oneOf negated ranges => by
      simp only [Token.StandsFor, exists_single_iff, restsOfToken]
      cases text with
      | nil => simp
      | cons byte text =>
          by_cases isMember : isInClass negated ranges byte = true
          · simp only [isMember, if_true, List.mem_singleton]
            exact ⟨fun same => ⟨byte, by rw [same], isMember⟩,
              fun ⟨_, same, _⟩ => (List.cons.inj same).2.symm⟩
          · simp [isMember]
  | .alternatives branches => by
      have ofBranches : rest ∈ restsOfBranches branches text ↔
          ∃ front, front ++ rest = text ∧ OneStandsFor branches front :=
        mem_restsOfBranches_iff branches
      rw [restsOfToken]
      simp only [Token.StandsFor, and_or_left, exists_or]
      split_ifs with void
      · simp [void, not_oneStandsFor_of_void void, eq_comm]
      · simp [void, ofBranches]

/-- What may be left behind tokens is what is left of a text that begins with something they
stand for. -/
theorem mem_restsOf_iff {whole rest : Bytes} : ∀ (tokens : List Token) {texts : List Bytes},
    (∀ text ∈ texts, text <:+ whole) →
      (rest ∈ restsOf tokens texts ↔
        ∃ text ∈ texts, ∃ front, front ++ rest = text ∧ StandFor tokens front)
  | [], texts, _ => by
      simp [restsOf, StandFor]
  | token :: tokens, texts, areEnds => by
      have behind : ∀ left ∈ texts.flatMap (restsOfToken token), left <:+ whole := by
        intro left isLeft
        obtain ⟨text, isText, isLeft⟩ := List.mem_flatMap.mp isLeft
        obtain ⟨front, same, _⟩ := (mem_restsOfToken_iff token).mp isLeft
        exact List.IsSuffix.trans ⟨front, same⟩ (areEnds text isText)
      rw [restsOf, mem_restsOf_iff tokens fun left isLeft =>
        behind left ((mem_distinct_iff behind).mp isLeft)]
      constructor
      · rintro ⟨left, isLeft, back, same, standFor⟩
        obtain ⟨text, isText, isLeft⟩ := List.mem_flatMap.mp ((mem_distinct_iff behind).mp isLeft)
        obtain ⟨front, sameFront, standsFor⟩ := (mem_restsOfToken_iff token).mp isLeft
        exact ⟨text, isText, front ++ back, by rw [List.append_assoc, same, sameFront],
          front, back, rfl, standsFor, standFor⟩
      · rintro ⟨text, isText, _, same, front, back, rfl, standsFor, standFor⟩
        rw [List.append_assoc] at same
        exact ⟨back ++ rest, (mem_distinct_iff behind).mpr (List.mem_flatMap.mpr
          ⟨text, isText, (mem_restsOfToken_iff token).mpr ⟨front, same, standsFor⟩⟩),
          back, rfl, standFor⟩

theorem mem_restsOfBranches_iff {text rest : Bytes} : ∀ branches : List (List Token),
    rest ∈ restsOfBranches branches text ↔
      ∃ front, front ++ rest = text ∧ OneStandsFor branches front
  | [] => by simp [restsOfBranches, OneStandsFor]
  | branch :: branches => by
      have ofBranch : rest ∈ restsOf branch [text] ↔
          ∃ start ∈ [text], ∃ front, front ++ rest = start ∧ StandFor branch front :=
        mem_restsOf_iff branch (List.forall_mem_singleton.mpr (List.suffix_refl text))
      rw [restsOfBranches, List.mem_append, mem_restsOfBranches_iff branches]
      simp only [OneStandsFor, and_or_left, exists_or]
      refine or_congr_left ?_
      cases isVoid branch with
      | true => simp
      | false => simp [ofBranch]

end

/-! ## Patterns -/

/-- **A path matches a pattern just if the tokens of the pattern stand for its bytes.** Two kinds
of patterns are apart: `**` matches every path, and a pattern that is looked up by a last name with
a point at its end matches none. -/
theorem isMatch_iff (glob : Glob) (path : String) :
    glob.isMatch path = true ↔
      glob.tokens = [.leadingSteps] ∨
        wantsFinalPoint glob.tokens = false ∧
          StandFor glob.tokens (encode path.toList) := by
  have wholly : ([] : Bytes) ∈ restsOf glob.tokens [encode path.toList] ↔
      StandFor glob.tokens (encode path.toList) := by
    simp [mem_restsOf_iff glob.tokens
      (List.forall_mem_singleton.mpr (List.suffix_refl (encode path.toList)))]
  have reached : (restsOf glob.tokens [encode path.toList]).any (·.isEmpty) = true ↔
      StandFor glob.tokens (encode path.toList) := by
    rw [← wholly, List.any_eq_true]
    simp
  rw [isMatch.eq_def]
  split
  · rename_i isSteps
    simp [isSteps]
  · rename_i notSteps
    rw [Bool.and_eq_true, Bool.not_eq_true', reached,
      or_iff_right fun isSteps => notSteps isSteps]

end SampleMethods.Glob
