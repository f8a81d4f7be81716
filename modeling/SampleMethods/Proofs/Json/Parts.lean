import SampleMethods.Proofs.Json.Brackets
import SampleMethods.Proofs.Json.Spelling

/-!
# Lists and objects of documents

A reader of lists or objects goes from part to part of a written list or object. It succeeds if
it does so on every part (`reads_elements`, `reads_members`), and if it succeeds, it has
done so on every part (`onlyGives_elements`, `onlyGives_members`). So the reader of values
reads a written value as something that the value stands for, or not at all
(`onlyTakes_valueUpTo`).
-/

set_option autoImplicit false

namespace SampleMethods.Json

open Reader Document

variable {levels : ℕ} {blanks rest : List Char}

namespace Document

/-! ## Between the parts -/

/-- The parts that come next, and the closing bracket. `first` says that no part has come before
them. -/
def remaining (first : Bool) (closing : Char) (last : Blanks) (parts : List (List Char)) :
    List Char :=
  if first then behindOpening closing last parts else behindPart closing last parts

theorem behindOpening_eq_remaining (closing : Char) (last : Blanks) (parts : List (List Char)) :
    behindOpening closing last parts = remaining true closing last parts :=
  rfl

/-- Behind a part comes a blank, a comma or the closing bracket. -/
theorem ends_remaining {closing : Char} (isClosing : closing ∈ [',', ']', '\x7d']) (last : Blanks)
    (parts : List (List Char)) (areBlank : AreBlank blanks) (rest : List Char) :
    Ends (blanks ++ (remaining false closing last parts ++ rest)) := by
  intro character isHead
  cases blanks with
  | cons blank blanks =>
      cases isHead
      exact .inl (areBlank _ List.mem_cons_self)
  | nil =>
      cases parts with
      | cons part parts =>
          cases isHead
          exact .inr List.mem_cons_self
      | nil =>
          obtain ⟨text, lastBlank⟩ := last
          cases text with
          | nil =>
              cases isHead
              exact .inr isClosing
          | cons blank blanks =>
              cases isHead
              exact .inl (lastBlank _ List.mem_cons_self)

theorem remaining_nil (first : Bool) (closing : Char) (last : Blanks) (rest : List Char) :
    remaining first closing last [] ++ rest = last.text ++ closing :: rest := by
  cases first <;> simp [remaining, behindOpening, behindPart]

theorem remaining_cons (first : Bool) (closing : Char) (last : Blanks) (part : List Char)
    (parts : List (List Char)) (rest : List Char) :
    remaining first closing last (part :: parts) ++ rest =
      (if first then [] else [',']) ++ (part ++ (remaining false closing last parts ++ rest)) := by
  cases first <;> simp [remaining, behindOpening, behindPart]

theorem length_lt_remaining (closing : Char) (last : Blanks) (parts : List (List Char)) :
    parts.length < (remaining false closing last parts).length := by
  induction parts with
  | nil => simp [remaining, behindPart]
  | cons part parts ih =>
      have isCons := remaining_cons false closing last part parts []
      rw [List.append_nil, List.append_nil] at isCons
      simp only [isCons, List.length_append, List.length_cons, Bool.false_eq_true, if_false]
      omega

theorem length_le_remaining (closing : Char) (last : Blanks) (parts : List (List Char)) :
    parts.length ≤ (remaining true closing last parts).length := by
  cases parts with
  | nil => exact Nat.zero_le _
  | cons part parts =>
      have shorter := length_lt_remaining closing last parts
      have isCons := remaining_cons true closing last part parts []
      rw [List.append_nil, List.append_nil] at isCons
      simp only [isCons, List.length_append, List.length_cons]
      omega

/-- One round for each character and one more are enough for all parts. -/
theorem length_lt_rounds {α : Type} (closing : Char) (last : Blanks) (written : α → List Char)
    (parts : List α) (rest : List Char) :
    parts.length < (behindOpening closing last (parts.map written) ++ rest).length + 1 := by
  have atMost := length_le_remaining closing last (parts.map written)
  rw [List.length_map] at atMost
  rw [behindOpening_eq_remaining, List.length_append]
  omega

theorem areBlank_append {first second : List Char} (firstBlank : AreBlank first)
    (secondBlank : AreBlank second) : AreBlank (first ++ second) :=
  List.forall_mem_append.mpr ⟨firstBlank, secondBlank⟩

/-- At the end of a list there is no further element. -/
theorem reads_hasElement_nil (first : Bool) (last : Blanks) (areBlank : AreBlank blanks)
    (rest : List Char) :
    Reads levels (hasElement first) (blanks ++ (remaining first ']' last [] ++ rest)) false
      (']' :: rest) := by
  rw [remaining_nil, ← List.append_assoc]
  exact reads_hasElement_end (areBlank_append areBlank last.areBlank) first rest

/-- At an element its text comes next. -/
theorem reads_hasElement_cons (first : Bool) (last front : Blanks) {text behind : List Char}
    {parts : List (List Char)} (begins : Begins text) (areBlank : AreBlank blanks)
    (rest : List Char) :
    Reads levels (hasElement first)
      (blanks ++ (remaining first ']' last ((front.text ++ (text ++ behind)) :: parts) ++ rest))
      true (text ++ (behind ++ (remaining false ']' last parts ++ rest))) := by
  have isElement (left : List Char) :
      Reads levels (hasElement true) (blanks ++ (front.text ++ (text ++ left))) true
        (text ++ left) := by
    rw [← List.append_assoc]
    exact reads_hasElement_first (areBlank_append areBlank front.areBlank) begins left
  rw [remaining_cons, List.append_assoc, List.append_assoc]
  cases first with
  | true => exact isElement _
  | false =>
      obtain ⟨first, others, rfl, visible, notEnd⟩ := begins
      refine (reads_nextVisible_cons areBlank rfl _).bind
        ((reads_skip _ _).bind ((reads_nextVisible_cons front.areBlank visible _).bind ?_))
      split
      · rename_i isNone
        cases isNone
      · rename_i isEnd
        exact absurd (Option.some.inj isEnd) notEnd
      · exact .pure true

/-- At the end of an object there is no further member. -/
theorem reads_hasMember_nil (first : Bool) (last : Blanks) (areBlank : AreBlank blanks)
    (rest : List Char) :
    Reads levels (hasMember first) (blanks ++ (remaining first '\x7d' last [] ++ rest)) false
      ('\x7d' :: rest) := by
  rw [remaining_nil, ← List.append_assoc]
  exact reads_hasMember_end (areBlank_append areBlank last.areBlank) first rest

theorem reads_colon (gap : Blanks) (rest : List Char) :
    Reads levels Reader.colon (gap.text ++ ':' :: rest) () rest :=
  (reads_nextVisible_cons gap.areBlank rfl _).bind (reads_skip ':' rest)

/-! ## Elements -/

section Elements

variable {α β : Type} {element : Reader β} {written : α → List Char} {parts : List (Part α)}
  {values : List β} {property : α → β → Prop} {last : Blanks}

/-- What the elements of a list are written as. -/
def elementTexts (written : α → List Char) (parts : List (Part α)) : List (List Char) :=
  parts.map fun part => part.textWith (written part.content)

/-- The reader takes the content of each part for the value at its place. -/
abbrev TakesEach (levels : ℕ) (element : Reader β) (written : α → List Char) :
    List (Part α) → List β → Prop :=
  List.Forall₂ fun part value => Takes levels element (written part.content) value

/-- Elements are read one after the other, from wherever in the list on. -/
theorem reads_elementsUpTo {rounds : ℕ} (each : TakesEach levels element written parts values)
    (enough : parts.length < rounds) (first : Bool) (areBlank : AreBlank blanks)
    (rest : List Char) :
    Reads levels (elementsUpTo element rounds first)
      (blanks ++ (remaining first ']' last (elementTexts written parts) ++ rest)) values
      (']' :: rest) := by
  induction each generalizing rounds first blanks with
  | nil =>
      obtain ⟨rounds, rfl⟩ := exists_round enough
      exact (reads_hasElement_nil first last areBlank rest).bind (.pure [])
  | @cons part value parts values takes each ih =>
      obtain ⟨rounds, rfl⟩ := exists_round enough
      have ends := ends_remaining (by decide : ']' ∈ _) last (elementTexts written parts)
        part.back.areBlank rest
      exact (reads_hasElement_cons first last part.front takes.begins areBlank rest).bind
        ((takes.reads [] _ areBlank_nil ends).bind
          ((ih (Nat.lt_of_succ_lt_succ enough) false part.back.areBlank).bind (.pure _)))

/-- **The elements of a list are read one after the other.** -/
theorem reads_elements (each : TakesEach levels element written parts values) (rest : List Char) :
    Reads levels (elements element) (behindOpening ']' last (elementTexts written parts) ++ rest)
      values (']' :: rest) := by
  have enough := length_lt_rounds ']' last (fun part => part.textWith (written part.content))
    parts rest
  exact .get fun _ _ => reads_elementsUpTo each enough true areBlank_nil rest

/-- Elements are read only as what each of them can be taken for. -/
theorem onlyGives_elementsUpTo (rounds : ℕ) (begins : ∀ part ∈ parts, Begins (written part.content))
    (each : ∀ part ∈ parts, OnlyTakes element (written part.content) (property part.content))
    (first : Bool) (areBlank : AreBlank blanks) (rest : List Char) :
    OnlyGives (elementsUpTo element rounds first)
      (blanks ++ (remaining first ']' last (elementTexts written parts) ++ rest))
      (UpTo (']' :: rest) fun values =>
        List.Forall₂ (fun part value => property part.content value) parts values) := by
  induction parts generalizing rounds first blanks with
  | nil =>
      cases rounds with
      | zero => exact onlyGives_fail _
      | succ rounds =>
          exact (reads_hasElement_nil first last areBlank rest).goesOn.onlyGives (.pure ⟨rfl, .nil⟩)
  | cons part parts ih =>
      cases rounds with
      | zero => exact onlyGives_fail _
      | succ rounds =>
          obtain ⟨partBegins, partsBegin⟩ := List.forall_mem_cons.mp begins
          obtain ⟨onlyTakes, eachRest⟩ := List.forall_mem_cons.mp each
          have ends := ends_remaining (by decide : ']' ∈ _) last (elementTexts written parts)
            part.back.areBlank rest
          refine (reads_hasElement_cons first last part.front partBegins areBlank
            rest).goesOn.onlyGives ((onlyTakes [] _ areBlank_nil ends).after fun value holds => ?_)
          exact (ih rounds partsBegin eachRest false part.back.areBlank).after fun values allHold =>
            .pure ⟨rfl, .cons holds allHold⟩

/-- **The elements of a list are read only as what each of them can be taken for.** -/
theorem onlyGives_elements (last : Blanks) (begins : ∀ part ∈ parts, Begins (written part.content))
    (each : ∀ part ∈ parts, OnlyTakes element (written part.content) (property part.content))
    (rest : List Char) :
    OnlyGives (elements element) (behindOpening ']' last (elementTexts written parts) ++ rest)
      (UpTo (']' :: rest) fun values =>
        List.Forall₂ (fun part value => property part.content value) parts values) :=
  .get fun _ _ _ => onlyGives_elementsUpTo _ begins each true areBlank_nil rest

end Elements

/-! ## Members -/

section Members

variable {α β : Type} {value : Reader β} {written : α → List Char}
  {parts : List (Part (Binding α))} {members : List (String × β)} {property : α → β → Prop}
  {last : Blanks}

/-- What the members of an object are written as. -/
def memberTexts (written : α → List Char) (parts : List (Part (Binding α))) : List (List Char) :=
  parts.map fun part => part.textWith (part.content.textWith (written part.content.value))

theorem remaining_memberTexts (first : Bool) (last : Blanks) (part : Part (Binding α))
    (parts : List (Part (Binding α))) (rest : List Char) :
    remaining first '\x7d' last (memberTexts written (part :: parts)) ++ rest =
      (if first then [] else [',']) ++ (part.front.text ++ (stringText part.content.key ++
        (part.content.gap.text ++ ':' :: (part.content.space.text ++
          (written part.content.value ++ (part.back.text ++
            (remaining false '\x7d' last (memberTexts written parts) ++ rest))))))) := by
  rw [memberTexts, List.map_cons, remaining_cons, memberTexts]
  simp only [Part.textWith, Binding.textWith, List.append_assoc, List.cons_append]

/-- At a member its key comes next, and then its value. -/
theorem reads_hasMember_cons (first : Bool) (last : Blanks) (part : Part (Binding α))
    (parts : List (Part (Binding α))) (areBlank : AreBlank blanks) (rest : List Char) :
    Reads levels (hasMember first)
      (blanks ++ (remaining first '\x7d' last (memberTexts written (part :: parts)) ++ rest)) true
      (stringText part.content.key ++ (part.content.gap.text ++ ':' :: (part.content.space.text ++
        (written part.content.value ++ (part.back.text ++
          (remaining false '\x7d' last (memberTexts written parts) ++ rest)))))) := by
  rw [remaining_memberTexts]
  cases first with
  | true =>
      have bothBlank := areBlank_append areBlank part.front.areBlank
      rw [if_pos rfl, List.nil_append, ← List.append_assoc]
      exact (reads_nextVisible_cons bothBlank rfl _).bind ((Reads.pure _).bind (.pure true))
  | false =>
      exact (reads_nextVisible_cons areBlank rfl _).bind ((reads_skip _ _).bind
        ((reads_nextVisible_cons part.front.areBlank rfl _).bind (.pure true)))

/-- The key of each part stands for the name at its place, and the reader takes its value for the
value there. -/
abbrev TakesMembers (levels : ℕ) (value : Reader β) (written : α → List Char) :
    List (Part (Binding α)) → List (String × β) → Prop :=
  List.Forall₂ fun part member => StandFor part.content.key member.1 ∧
    Takes levels value (written part.content.value) member.2

/-- Members are read one after the other, from wherever in the object on. -/
theorem reads_membersUpTo {rounds : ℕ} (each : TakesMembers levels value written parts members)
    (enough : parts.length < rounds) (first : Bool) (areBlank : AreBlank blanks)
    (rest : List Char) :
    Reads levels (membersUpTo value rounds first)
      (blanks ++ (remaining first '\x7d' last (memberTexts written parts) ++ rest)) members
      ('\x7d' :: rest) := by
  induction each generalizing rounds first blanks with
  | nil =>
      obtain ⟨rounds, rfl⟩ := exists_round enough
      exact (reads_hasMember_nil first last areBlank rest).bind (.pure [])
  | @cons part member parts members isMember each ih =>
      obtain ⟨standFor, takes⟩ := isMember
      obtain ⟨rounds, rfl⟩ := exists_round enough
      have ends := ends_remaining (by decide : '\x7d' ∈ _) last (memberTexts written parts)
        part.back.areBlank rest
      exact (reads_hasMember_cons first last part parts areBlank rest).bind
        ((reads_string_of_standFor standFor _).bind ((reads_colon part.content.gap _).bind
          ((takes.reads _ _ part.content.space.areBlank ends).bind
            ((ih (Nat.lt_of_succ_lt_succ enough) false part.back.areBlank).bind (.pure _)))))

/-- **The members of an object are read one after the other.** -/
theorem reads_members (each : TakesMembers levels value written parts members)
    (rest : List Char) :
    Reads levels (Reader.members value)
      (behindOpening '\x7d' last (memberTexts written parts) ++ rest) members
      ('\x7d' :: rest) := by
  have enough := length_lt_rounds '\x7d' last
    (fun part => part.textWith (part.content.textWith (written part.content.value))) parts rest
  exact .get fun _ _ => reads_membersUpTo each enough true areBlank_nil rest

/-- What a part can be read as: a name that its key stands for, and something with the
property. -/
def CanBe (property : α → β → Prop) (part : Part (Binding α)) (member : String × β) : Prop :=
  StandFor part.content.key member.1 ∧ property part.content.value member.2

/-- Members are read only as what each of them can be taken for. -/
theorem onlyGives_membersUpTo (rounds : ℕ)
    (each : ∀ part ∈ parts,
      OnlyTakes value (written part.content.value) (property part.content.value))
    (first : Bool) (areBlank : AreBlank blanks) (rest : List Char) :
    OnlyGives (membersUpTo value rounds first)
      (blanks ++ (remaining first '\x7d' last (memberTexts written parts) ++ rest))
      (UpTo ('\x7d' :: rest) (List.Forall₂ (CanBe property) parts)) := by
  induction parts generalizing rounds first blanks with
  | nil =>
      cases rounds with
      | zero => exact onlyGives_fail _
      | succ rounds =>
          exact (reads_hasMember_nil first last areBlank rest).goesOn.onlyGives (.pure ⟨rfl, .nil⟩)
  | cons part parts ih =>
      cases rounds with
      | zero => exact onlyGives_fail _
      | succ rounds =>
          obtain ⟨onlyTakes, eachRest⟩ := List.forall_mem_cons.mp each
          have ends := ends_remaining (by decide : '\x7d' ∈ _) last (memberTexts written parts)
            part.back.areBlank rest
          refine (reads_hasMember_cons first last part parts areBlank rest).goesOn.onlyGives
            ((onlyGives_string _ _).after fun name standFor =>
              (reads_colon part.content.gap _).goesOn.onlyGives
                ((onlyTakes _ _ part.content.space.areBlank ends).after fun read holds => ?_))
          exact (ih rounds eachRest false part.back.areBlank).after fun members allHold =>
            .pure ⟨rfl, .cons ⟨standFor, holds⟩ allHold⟩

/-- **The members of an object are read only as what each of them can be taken for.** -/
theorem onlyGives_members (last : Blanks)
    (each : ∀ part ∈ parts,
      OnlyTakes value (written part.content.value) (property part.content.value))
    (rest : List Char) :
    OnlyGives (Reader.members value)
      (behindOpening '\x7d' last (memberTexts written parts) ++ rest)
      (UpTo ('\x7d' :: rest) (List.Forall₂ (CanBe property) parts)) :=
  .get fun _ _ _ => onlyGives_membersUpTo _ each true areBlank_nil rest

end Members

/-! ## Values -/

theorem text_array (elements : List (Part Value)) (last : Blanks) :
    (Value.array elements last).text =
      '[' :: behindOpening ']' last (elementTexts Value.text elements) := by
  rw [Value.text, elementTexts]

theorem text_object (members : List (Part (Binding Value))) (last : Blanks) :
    (Value.object members last).text =
      '\x7b' :: behindOpening '\x7d' last (memberTexts Value.text members) := by
  rw [Value.text, memberTexts]

/-- A number begins with a sign or a digit. -/
theorem Number.begins (number : Number) :
    ∃ first others, number.text = first :: others ∧ (first = '-' ∨ isDigit first = true) := by
  rw [Number.text]
  cases number.isNegative with
  | true => exact ⟨'-', _, rfl, .inl rfl⟩
  | false => exact ⟨number.whole.first, _, rfl, .inr number.whole.isDigit_first⟩

theorem visible_of_isDigit {first : Char} (isDigit : isDigit first = true) :
    isBlank first = false ∧ first ≠ ']' := by
  constructor
  · cases blank : isBlank first with
    | false => rfl
    | true =>
        simp only [isBlank, Bool.or_eq_true, beq_iff_eq] at blank
        rcases blank with ((rfl | rfl) | rfl) | rfl
        all_goals cases isDigit
  · rintro rfl
    cases isDigit

/-- The characters that a value may begin with, by its form. -/
def Value.StartsWith : Value → Char → Prop
  | .null, first => first = 'n'
  | .bool true, first => first = 't'
  | .bool false, first => first = 'f'
  | .number _, first => first = '-' ∨ isDigit first = true
  | .string _, first => first = '"'
  | .array _ _, first => first = '['
  | .object _ _, first => first = '\x7b'

section Starts

variable {value : Value}

theorem Value.StartsWith.isNull (starts : value.StartsWith 'n') : value = .null := by
  rcases value with _ | (_ | _) | _ | _ | _ | _
  case null => rfl
  all_goals exact absurd starts (by simp [StartsWith, isDigit])

theorem Value.StartsWith.isTrue (starts : value.StartsWith 't') : value = .bool true := by
  rcases value with _ | (_ | _) | _ | _ | _ | _
  case bool.true => rfl
  all_goals exact absurd starts (by simp [StartsWith, isDigit])

theorem Value.StartsWith.isFalse (starts : value.StartsWith 'f') : value = .bool false := by
  rcases value with _ | (_ | _) | _ | _ | _ | _
  case bool.false => rfl
  all_goals exact absurd starts (by simp [StartsWith, isDigit])

theorem Value.StartsWith.isString (starts : value.StartsWith '"') :
    ∃ pieces, value = .string pieces := by
  rcases value with _ | (_ | _) | _ | pieces | _ | _
  case string => exact ⟨pieces, rfl⟩
  all_goals exact absurd starts (by simp [StartsWith, isDigit])

theorem Value.StartsWith.isArray (starts : value.StartsWith '[') :
    ∃ elements last, value = .array elements last := by
  rcases value with _ | (_ | _) | _ | _ | ⟨elements, last⟩ | _
  case array => exact ⟨elements, last, rfl⟩
  all_goals exact absurd starts (by simp [StartsWith, isDigit])

theorem Value.StartsWith.isObject (starts : value.StartsWith '\x7b') :
    ∃ members last, value = .object members last := by
  rcases value with _ | (_ | _) | _ | _ | _ | ⟨members, last⟩
  case object => exact ⟨members, last, rfl⟩
  all_goals exact absurd starts (by simp [StartsWith, isDigit])

end Starts

/-- No value begins with a blank or the end of a list. -/
theorem Value.exists_first (value : Value) :
    ∃ first others, value.text = first :: others ∧ isBlank first = false ∧ first ≠ ']' ∧
      value.StartsWith first := by
  cases value with
  | null => exact ⟨'n', _, by rw [Value.text]; rfl, by decide, by decide, rfl⟩
  | bool value =>
      cases value with
      | true => exact ⟨'t', _, by rw [Value.text]; rfl, by decide, by decide, rfl⟩
      | false => exact ⟨'f', _, by rw [Value.text]; rfl, by decide, by decide, rfl⟩
  | number number =>
      obtain ⟨first, others, isText, begins⟩ := number.begins
      have visible : isBlank first = false ∧ first ≠ ']' := by
        rcases begins with rfl | isDigit
        · decide
        · exact visible_of_isDigit isDigit
      exact ⟨first, others, by rw [Value.text, isText], visible.1, visible.2, begins⟩
  | string pieces => exact ⟨'"', _, by rw [Value.text]; rfl, by decide, by decide, rfl⟩
  | array elements last => exact ⟨'[', _, text_array elements last, by decide, by decide, rfl⟩
  | object members last =>
      exact ⟨'\x7b', _, text_object members last, by decide, by decide, rfl⟩

theorem Value.begins (value : Value) : Begins value.text := by
  obtain ⟨first, others, isText, visible, notEnd, _⟩ := value.exists_first
  exact ⟨first, others, isText, visible, notEnd⟩

theorem reads_word (wanted rest : List Char) :
    Reads levels (word wanted) (wanted ++ rest) () rest := by
  induction wanted with
  | nil => exact .pure ()
  | cons character wanted ih =>
      refine (reads_next character _).bind ?_
      simp only [beq_self_eq_true, if_true]
      exact ih

/-- A word is gone over from its first character on. -/
theorem goesOn_literal {α : Type} (first : Char) (others rest : List Char) (next : Reader α) :
    GoesOn levels (do skip; word others; next) (first :: (others ++ rest)) next rest :=
  (reads_skip first _).goesOn.trans (reads_word others rest).goesOn

theorem onlyGives_list {α : Type} {reader : Reader α} {text : List Char} {known : α → Prop}
    (inside : OnlyGives reader text (UpTo (']' :: rest) known)) :
    OnlyGives (enclosed reader listEnd) ('[' :: text) (UpTo rest known) :=
  inside.enclosed fun _ _ ⟨isLeft, holds⟩ =>
    isLeft ▸ (reads_listEnd rest).onlyGives ⟨rfl, holds⟩

theorem onlyGives_object {α : Type} {reader : Reader α} {text : List Char} {known : α → Prop}
    (inside : OnlyGives reader text (UpTo ('\x7d' :: rest) known)) :
    OnlyGives (enclosed reader objectEnd) ('\x7b' :: text) (UpTo rest known) :=
  inside.enclosed fun _ _ ⟨isLeft, holds⟩ =>
    isLeft ▸ (reads_objectEnd rest).onlyGives ⟨rfl, holds⟩

theorem onlyTakes_of_visible {value : Value} {property : Json → Prop} {rounds : ℕ}
    (gives : ∀ fewer rest, Ends rest →
      OnlyGives (valueUpTo (fewer + 1)) (value.text ++ rest) (UpTo rest property)) :
    OnlyTakes (valueUpTo rounds) value.text property := by
  cases rounds with
  | zero => exact fun _ _ _ _ => onlyGives_fail _
  | succ rounds => exact (skipsBlanks_nextVisible _).onlyTakes value.begins (gives rounds)

/-- **A written value is read only as something that it stands for.** -/
theorem onlyTakes_valueUpTo (value : Value) (rounds : ℕ) :
    OnlyTakes (valueUpTo rounds) value.text (Represents value) := by
  induction value generalizing rounds with
  | null =>
      refine onlyTakes_of_visible fun _ rest _ => ?_
      rw [Value.text]
      exact (reads_nextVisible_here rfl _).goesOn.onlyGives
        ((goesOn_literal 'n' "ull".toList rest _).onlyGives (.pure ⟨rfl, .null⟩))
  | bool value =>
      refine onlyTakes_of_visible fun _ rest _ => ?_
      cases value with
      | true =>
          rw [Value.text]
          exact (reads_nextVisible_here rfl _).goesOn.onlyGives
            ((goesOn_literal 't' "rue".toList rest _).onlyGives (.pure ⟨rfl, .bool true⟩))
      | false =>
          rw [Value.text]
          exact (reads_nextVisible_here rfl _).goesOn.onlyGives
            ((goesOn_literal 'f' "alse".toList rest _).onlyGives (.pure ⟨rfl, .bool false⟩))
  | number number =>
      refine onlyTakes_of_visible fun _ rest ends => ?_
      have gives := onlyGives_number number ends
      obtain ⟨first, others, isText, begins⟩ := number.begins
      have isNumber : (first == '-' || isDigit first) = true := by simpa using begins
      obtain ⟨_, _, isSame, visible, _⟩ := (Value.number number).exists_first
      rw [Value.text, isText] at isSame
      cases isSame
      rw [Value.text]
      rw [isText] at gives ⊢
      refine (reads_nextVisible_here visible _).goesOn.onlyGives ?_
      split
      · rename_i isNone
        cases isNone
      iterate 6
        · rename_i isSign
          cases isSign
          exact absurd begins (by decide)
      · rename_i isSame
        cases isSame
        rw [if_pos isNumber]
        exact gives.after fun read _ => .pure ⟨rfl, .number number read⟩
  | string pieces =>
      refine onlyTakes_of_visible fun _ rest _ => ?_
      rw [Value.text]
      exact (reads_nextVisible_here rfl _).goesOn.onlyGives
        ((onlyGives_string pieces rest).after fun text standFor => .pure ⟨rfl, .string standFor⟩)
  | array elements last ih =>
      refine onlyTakes_of_visible fun fewer rest _ => ?_
      have inside := onlyGives_elements last (fun part _ => part.content.begins)
        (fun part isPart => ih part isPart fewer) rest
      rw [text_array]
      exact (reads_nextVisible_here rfl _).goesOn.onlyGives
        ((onlyGives_list inside).after fun items each => .pure ⟨rfl, .array each⟩)
  | object members last ih =>
      refine onlyTakes_of_visible fun fewer rest _ => ?_
      have inside := onlyGives_members last
        (fun part isPart => ih part isPart fewer) rest
      rw [text_object]
      exact (reads_nextVisible_here rfl _).goesOn.onlyGives
        ((onlyGives_object inside).after fun items each => .pure ⟨rfl, .object
          (each.imp fun _ _ canBe => canBe.1) (each.imp fun _ _ canBe => canBe.2)⟩)

end Document

end SampleMethods.Json
