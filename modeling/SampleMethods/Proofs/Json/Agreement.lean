import SampleMethods.Proofs.Failure
import SampleMethods.Proofs.Json.Parts

/-!
# Decoders that read what values hold

A decoder works on text and on values, and the two ways have to agree (`Decoder.Agrees`): from
a written value it reads just what it gets from the JSON value that is read there. One
direction needs that no object repeats a key, because of two members with one name the text shows
both, and the JSON value holds the later one.

Texts, truth values, lists, optional values and named values agree, if what they are made of
does.
-/

set_option autoImplicit false

namespace SampleMethods.Json

open Reader Document

variable {levels : ℕ}

/-! ## Two rows over one -/

section Rows

variable {α β γ : Type} {first : α → β → Prop} {second : β → γ → Prop} {both : α → γ → Prop}
  {heads : List α} {middles : List β} {lasts : List γ}

/-- Two relations between rows of one length come together place by place. -/
theorem forall₂_of_forall₂ (isFirst : List.Forall₂ first heads middles)
    (isSecond : List.Forall₂ second middles lasts)
    (together : ∀ head ∈ heads, ∀ middle last, first head middle → second middle last →
      both head last) : List.Forall₂ both heads lasts := by
  induction isFirst generalizing lasts with
  | nil =>
      cases isSecond
      exact .nil
  | @cons head middle heads middles holds _ ih =>
      cases isSecond with
      | cons holdsBehind isRest =>
          exact .cons (together head List.mem_cons_self _ _ holds holdsBehind)
            (ih isRest fun other isOther => together other (List.mem_cons_of_mem _ isOther))

/-- What stands between two rows at each place is a row of its own. -/
theorem exists_between (rows : List.Forall₂
      (fun head last => ∃ middle, first head middle ∧ second middle last) heads lasts) :
    ∃ middles, List.Forall₂ first heads middles ∧ List.Forall₂ second middles lasts := by
  induction rows with
  | nil => exact ⟨[], .nil, .nil⟩
  | cons holds _ ih =>
      obtain ⟨middle, isFirst, isSecond⟩ := holds
      obtain ⟨middles, areFirst, areSecond⟩ := ih
      exact ⟨middle :: middles, .cons isFirst areFirst, .cons isSecond areSecond⟩

theorem exists_head (rows : List.Forall₂ first heads middles) {middle : β}
    (isMiddle : middle ∈ middles) : ∃ head ∈ heads, first head middle := by
  induction rows with
  | nil => cases isMiddle
  | @cons head other heads middles holds _ ih =>
      rcases List.mem_cons.mp isMiddle with rfl | isMiddle
      · exact ⟨head, List.mem_cons_self, holds⟩
      · obtain ⟨head, isHead, holds⟩ := ih isMiddle
        exact ⟨head, List.mem_cons_of_mem _ isHead, holds⟩

end Rows

/-! ## Values that are read -/

namespace Document

/-- The written value is read as the JSON value if so many brackets may be opened. -/
def ReadsAs (levels : ℕ) (value : Value) (json : Json) : Prop :=
  ∀ rounds, levels < rounds → Takes levels (valueUpTo rounds) value.text json

theorem ReadsAs.represents {value : Value} {json : Json} (readsAs : ReadsAs levels value json) :
    Represents value json :=
  (readsAs (levels + 1) (Nat.lt_succ_self levels)).holds (onlyTakes_valueUpTo value (levels + 1))

theorem readsAs_of_visible {value : Value} {json : Json}
    (reads : ∀ fewer rest, levels ≤ fewer → Ends rest →
      Reads levels (valueUpTo (fewer + 1)) (value.text ++ rest) json rest) :
    ReadsAs levels value json := by
  intro rounds enough
  obtain ⟨fewer, rfl⟩ := exists_round enough
  exact (skipsBlanks_nextVisible _).takes value.begins
    fun rest => reads fewer rest (Nat.le_of_lt_succ enough)

theorem Represents.eq_null {value : Value} (represents : Represents value .null) :
    value = .null := by
  cases represents
  rfl

theorem readsAs_null : ReadsAs levels .null .null := by
  refine readsAs_of_visible fun _ rest _ _ => ?_
  rw [Value.text]
  exact (reads_nextVisible_here rfl _).bind
    ((goesOn_literal 'n' "ull".toList rest _).reads (.pure _))

theorem readsAs_bool (value : Bool) : ReadsAs levels (.bool value) (.bool value) := by
  refine readsAs_of_visible fun _ rest _ _ => ?_
  cases value with
  | true =>
      rw [Value.text]
      exact (reads_nextVisible_here rfl _).bind
        ((goesOn_literal 't' "rue".toList rest _).reads (.pure _))
  | false =>
      rw [Value.text]
      exact (reads_nextVisible_here rfl _).bind
        ((goesOn_literal 'f' "alse".toList rest _).reads (.pure _))

theorem readsAs_string {pieces : List Piece} {text : String} (standFor : StandFor pieces text) :
    ReadsAs levels (.string pieces) (.string text) := by
  refine readsAs_of_visible fun _ rest _ _ => ?_
  rw [Value.text]
  exact (reads_nextVisible_here rfl _).bind
    ((reads_string_of_standFor standFor rest).bind (.pure _))

theorem readsAs_array {elements : List (Document.Part Value)} {last : Blanks} {items : List Json}
    (each : List.Forall₂ (fun part item => ReadsAs levels part.content item) elements items) :
    ReadsAs (levels + 1) (.array elements last) (.array items) := by
  refine readsAs_of_visible fun fewer rest enough _ => ?_
  have inside : TakesEach levels (valueUpTo fewer) Value.text elements items :=
    each.imp fun part item readsAs => readsAs fewer enough
  rw [text_array]
  exact (reads_nextVisible_here rfl _).bind
    ((Reads.enclosed (reads_elements inside rest) (reads_listEnd rest)).bind (.pure _))

theorem readsAs_object {parts : List (Document.Part (Binding Value))} {last : Blanks}
    {members : List (String × Json)}
    (each : List.Forall₂ (fun part member => StandFor part.content.key member.1 ∧
      ReadsAs levels part.content.value member.2) parts members) :
    ReadsAs (levels + 1) (.object parts last) (.ofMembers members) := by
  refine readsAs_of_visible fun fewer rest enough _ => ?_
  have inside : TakesMembers levels (valueUpTo fewer) Value.text parts members :=
    each.imp fun part member ⟨standFor, readsAs⟩ => ⟨standFor, readsAs fewer enough⟩
  rw [text_object]
  exact (reads_nextVisible_here rfl _).bind
    ((Reads.enclosed (reads_members inside rest) (reads_objectEnd rest)).bind (.pure _))

end Document

/-! ## Members in order -/

theorem insertMember_perm {name : String} (value : Json) {others : List (String × Json)}
    (isNew : name ∉ others.map (·.1)) :
    (insertMember name value others).Perm ((name, value) :: others) := by
  induction others with
  | nil => exact .refl _
  | cons member others ih =>
      obtain ⟨other, kept⟩ := member
      rw [List.map_cons, List.mem_cons, not_or] at isNew
      rw [insertMember, if_neg isNew.1]
      split_ifs
      · exact .refl _
      · exact (ih isNew.2).cons _ |>.trans (.swap _ _ _)

theorem foldl_insertMember_perm (members others : List (String × Json))
    (distinct : (members.map (·.1) ++ others.map (·.1)).Nodup) :
    (members.foldl (fun others member => insertMember member.1 member.2 others) others).Perm
      (members ++ others) := by
  induction members generalizing others with
  | nil => exact .refl _
  | cons member members ih =>
      have isNew : member.1 ∉ others.map (·.1) := fun repeated =>
        (List.nodup_cons.mp distinct).1 (List.mem_append_right _ repeated)
      have inserted := insertMember_perm member.2 isNew
      have moved : ((member :: members).map (·.1) ++ others.map (·.1)).Perm
          (members.map (·.1) ++ (insertMember member.1 member.2 others).map (·.1)) :=
        List.perm_middle.symm.trans ((inserted.map (·.1)).symm.append_left _)
      exact (ih _ (moved.nodup_iff.mp distinct)).trans
        ((inserted.append_left members).trans List.perm_middle)

/-- The members of an object are those that it was made of, if no two of them have one name. -/
theorem exists_ofMembers {members : List (String × Json)} (distinct : (members.map (·.1)).Nodup) :
    ∃ sorted, Json.ofMembers members = .object sorted ∧ sorted.Perm members := by
  have perm := foldl_insertMember_perm members [] (by simpa using distinct)
  rw [List.append_nil] at perm
  exact ⟨_, rfl, perm⟩

theorem Document.nodup_names {parts : List (Document.Part (Binding Value))}
    {members : List (String × Json)}
    (distinct : parts.Pairwise fun first second =>
      ∀ name, StandFor first.content.key name → ¬StandFor second.content.key name)
    (keys : List.Forall₂ (fun part member => StandFor part.content.key member.1) parts members) :
    (members.map (·.1)).Nodup := by
  induction keys with
  | nil => exact List.nodup_nil
  | @cons part member parts members standFor keys ih =>
      obtain ⟨differs, distinct⟩ := List.pairwise_cons.mp distinct
      refine List.nodup_cons.mpr ⟨fun repeated => ?_, ih distinct⟩
      obtain ⟨other, isOther, same⟩ := List.mem_map.mp repeated
      obtain ⟨otherPart, isPart, standForOther⟩ := exists_head keys isOther
      have same : other.1 = member.1 := same
      exact differs otherPart isPart member.1 standFor (same ▸ standForOther)

/-! ## Agreement -/

namespace Decoder

/-- The decoder gets the result from a JSON value that the written value is read as. -/
def Gets {α : Type} (levels : ℕ) (decoder : Decoder α) (value : Value) (result : α) : Prop :=
  ∃ json, ReadsAs levels value json ∧ decoder.ofJson json = .ok result

/-- The decoder reads from written values what it gets from JSON values. -/
structure Agrees {α : Type} (levels : ℕ) (decoder : Decoder α) : Prop where
  /-- What it gets from a value that a written value stands for, it reads there. -/
  takes : ∀ {value : Value} {json : Json} {result : α}, Represents value json →
    DistinctKeys value → decoder.ofJson json = .ok result →
    Takes levels decoder.reader value.text result
  /-- What it reads it gets from the value that is read there. -/
  onlyTakes : ∀ value : Value, OnlyTakes decoder.reader value.text (Gets levels decoder value)

theorem skipsBlanks_valueStart {α : Type} (next : Char → Reader α) :
    SkipsBlanks (valueStart >>= next) :=
  (skipsBlanks_nextVisible _).bind next

theorem reads_valueStart_here {first : Char} (visible : isBlank first = false) (rest : List Char) :
    Reads levels valueStart (first :: rest) first (first :: rest) :=
  reads_valueStart areBlank_nil visible rest

/-- A value that is not of the wanted form is refused. -/
theorem never_refuse {α : Type} (wanted : String) : Never (refuse (α := α) wanted) := by
  have refused (found : Found) : Never (α := α) (failUnplaced (.wrongType found wanted)) :=
    never_failUnplaced _
  refine .placed (.behind fun first? => ?_)
  split
  · exact .behind fun _ => .behind fun _ => .behind fun _ => refused _
  · exact .behind fun _ => .behind fun _ => .behind fun _ => refused _
  · exact .behind fun _ => .behind fun _ => .behind fun _ => refused _
  · exact .behind fun _ => .behind fun _ => refused _
  · exact .behind fun _ => refused _
  · exact .behind fun _ => refused _
  · split_ifs
    · exact .behind fun _ => .behind fun _ => refused _
    · exact (never_failAtNext _).stop
  · exact (never_failAtNext _).stop

/-- A reader that wants one character in front takes nothing but values that start with it. -/
theorem onlyTakes_of_wanted {α : Type} {value : Value} {wanted : Char} {found : Reader α}
    {form : String} {property : α → Prop}
    (gives : value.StartsWith wanted →
      ∀ rest, OnlyGives found (value.text ++ rest) (UpTo rest property)) :
    OnlyTakes (do if (← valueStart) == wanted then found else refuse form) value.text property := by
  refine (skipsBlanks_valueStart _).onlyTakes value.begins fun rest _ => ?_
  obtain ⟨first, others, isText, visible, _, starts⟩ := value.exists_first
  rw [isText]
  refine (reads_valueStart_here visible _).goesOn.onlyGives ?_
  by_cases isWanted : first = wanted
  · have given := gives (isWanted ▸ starts) rest
    rw [isText] at given
    rw [if_pos (beq_iff_eq.mpr isWanted)]
    exact given
  · rw [if_neg fun same => isWanted (beq_iff_eq.mp same)]
    exact (never_refuse _).onlyGives

/-! ## Simple forms -/

theorem agrees_string : Agrees levels string where
  takes := by
    intro value json result represents _ isResult
    cases represents with
    | @string pieces text standFor =>
        cases isResult
        refine (skipsBlanks_valueStart _).takes (Value.begins _) fun rest _ => ?_
        rw [Value.text]
        exact (reads_valueStart_here rfl _).bind (reads_string_of_standFor standFor rest)
    | _ => cases isResult
  onlyTakes value := onlyTakes_of_wanted fun starts rest => by
    obtain ⟨pieces, rfl⟩ := starts.isString
    rw [Value.text]
    exact (onlyGives_string pieces rest).upTo fun text standFor =>
      ⟨.string text, readsAs_string standFor, rfl⟩

theorem agrees_bool : Agrees levels bool where
  takes := by
    intro value json result represents _ isResult
    cases represents with
    | bool truth =>
        cases isResult
        refine (skipsBlanks_valueStart _).takes (Value.begins _) fun rest _ => ?_
        cases result with
        | true =>
            rw [Value.text]
            exact (reads_valueStart_here rfl _).bind
              ((goesOn_literal 't' "rue".toList rest _).reads (.pure true))
        | false =>
            rw [Value.text]
            exact (reads_valueStart_here rfl _).bind
              ((goesOn_literal 'f' "alse".toList rest _).reads (.pure false))
    | _ => cases isResult
  onlyTakes value := by
    refine (skipsBlanks_valueStart _).onlyTakes value.begins fun rest _ => ?_
    obtain ⟨first, others, isText, visible, _, starts⟩ := value.exists_first
    rw [isText]
    refine (reads_valueStart_here visible _).goesOn.onlyGives ?_
    split
    · obtain rfl := starts.isTrue
      rw [Value.text] at isText
      cases isText
      exact (goesOn_literal 't' "rue".toList rest _).onlyGives
        (.pure ⟨rfl, .bool true, readsAs_bool true, rfl⟩)
    · obtain rfl := starts.isFalse
      rw [Value.text] at isText
      cases isText
      exact (goesOn_literal 'f' "alse".toList rest _).onlyGives
        (.pure ⟨rfl, .bool false, readsAs_bool false, rfl⟩)
    · exact (never_refuse _).onlyGives

theorem agrees_nothing (levels : ℕ) : Agrees levels nothing where
  takes := by
    intro value json result represents _ isResult
    cases represents with
    | null =>
        refine (skipsBlanks_valueStart _).takes (Value.begins _) fun rest _ => ?_
        rw [Value.text]
        exact (reads_valueStart_here rfl _).bind
          ((reads_skip 'n' _).bind (reads_word "ull".toList rest))
    | _ => cases isResult
  onlyTakes value := onlyTakes_of_wanted fun starts rest => by
    obtain rfl := starts.isNull
    rw [Value.text]
    exact (reads_skip 'n' _).goesOn.onlyGives
      ((reads_word "ull".toList rest).onlyGives ⟨rfl, .null, readsAs_null, rfl⟩)

section Built

variable {α β : Type} {decoder : Decoder α}

theorem Agrees.map (agrees : Agrees levels decoder) (f : α → β) :
    Agrees levels (map f decoder) where
  takes := by
    intro value json result represents distinct isResult
    obtain ⟨before, isBefore, rfl⟩ := map_eq_ok_iff.mp isResult
    exact takes_map (agrees.takes represents distinct isBefore) f
  onlyTakes value := by
    intro blanks rest areBlank ends
    refine (agrees.onlyTakes value blanks rest areBlank ends).after fun result isResult => ?_
    obtain ⟨json, readsAs, isResult⟩ := isResult
    exact .pure ⟨rfl, json, readsAs, map_eq_ok_iff.mpr ⟨result, isResult, rfl⟩⟩

theorem optional_eq_ok_iff {json : Json} {result : Option α} (notNull : json ≠ .null) :
    decoder.optional.ofJson json = .ok result ↔
      ∃ inner, decoder.ofJson json = .ok inner ∧ some inner = result := by
  rw [← map_eq_ok_iff]
  cases json with
  | null => exact absurd rfl notNull
  | _ => rfl

theorem Agrees.optional (agrees : Agrees levels decoder) : Agrees levels (optional decoder) where
  takes := by
    intro value json result represents distinct isResult
    refine (skipsBlanks_nextVisible _).takes value.begins fun rest ends => ?_
    by_cases isNull : value = .null
    · cases isNull
      cases represents
      cases isResult
      rw [Value.text]
      exact (reads_nextVisible_here rfl _).bind
        ((goesOn_literal 'n' "ull".toList rest _).reads (.pure none))
    · have notNull : json ≠ .null := fun same => by
        cases same
        cases represents
        exact isNull rfl
      obtain ⟨inner, isInner, rfl⟩ := (optional_eq_ok_iff notNull).mp isResult
      have reads := (agrees.takes represents distinct isInner).reads [] rest areBlank_nil ends
      obtain ⟨first, others, isText, visible, _, starts⟩ := value.exists_first
      have noSign : (some first == some 'n') = false :=
        beq_eq_false_iff_ne.mpr fun same => isNull (Option.some.inj same ▸ starts).isNull
      rw [isText, List.nil_append] at reads
      rw [isText]
      refine (reads_nextVisible_here visible _).bind ?_
      rw [noSign]
      exact reads.bind (.pure (some inner))
  onlyTakes value := by
    refine (skipsBlanks_nextVisible _).onlyTakes value.begins fun rest ends => ?_
    obtain ⟨first, others, isText, visible, _, starts⟩ := value.exists_first
    by_cases isNull : first = 'n'
    · obtain rfl := (isNull ▸ starts).isNull
      rw [Value.text]
      exact (reads_nextVisible_here rfl _).goesOn.onlyGives
        ((goesOn_literal 'n' "ull".toList rest _).onlyGives (.pure ⟨rfl, .null, readsAs_null, rfl⟩))
    · have noSign : (some first == some 'n') = false :=
        beq_eq_false_iff_ne.mpr fun same => isNull (Option.some.inj same)
      have gives := agrees.onlyTakes value [] rest areBlank_nil ends
      rw [isText, List.nil_append] at gives
      rw [isText]
      refine (reads_nextVisible_here visible _).goesOn.onlyGives ?_
      rw [noSign]
      refine gives.after fun inner isGot => ?_
      obtain ⟨json, readsAs, isInner⟩ := isGot
      refine .pure ⟨rfl, json, readsAs, ?_⟩
      refine (optional_eq_ok_iff fun same => ?_).mpr ⟨inner, isInner, rfl⟩
      cases same
      obtain rfl := readsAs.represents.eq_null
      exact isNull starts

theorem Agrees.list (agrees : Agrees levels decoder) : Agrees (levels + 1) (list decoder) where
  takes := by
    intro value json result represents distinct isResult
    cases represents with
    | @array elements last items each =>
        cases distinct with
        | array eachDistinct =>
        have inside : TakesEach levels decoder.reader Value.text elements result :=
          forall₂_of_forall₂ each (mapM_eq_ok_iff.mp isResult)
            fun part isPart item value represents isValue =>
              agrees.takes represents (eachDistinct part isPart) isValue
        refine (skipsBlanks_valueStart _).takes (Value.begins _) fun rest _ => ?_
        rw [text_array]
        exact (reads_valueStart_here rfl _).bind
          (Reads.enclosed (reads_elements inside rest) (reads_listEnd rest))
    | _ => cases isResult
  onlyTakes value := onlyTakes_of_wanted fun starts rest => by
    obtain ⟨elements, last, rfl⟩ := starts.isArray
    have inside := onlyGives_elements last (fun part _ => part.content.begins)
      (fun part (_ : part ∈ elements) => agrees.onlyTakes part.content) rest
    rw [text_array]
    refine (onlyGives_list inside).upTo fun results each => ?_
    obtain ⟨items, eachReads, eachGives⟩ := exists_between each
    exact ⟨.array items, readsAs_array eachReads, mapM_eq_ok_iff.mpr eachGives⟩

/-! ## Named values -/

section Choices

variable {choices : List (String × α)} {pieces : List Piece} {blanks : List Char}

theorem reads_chosenReader {name : String} {result : α} (areBlank : AreBlank blanks)
    (standFor : StandFor pieces name) (isChosen : chosen choices name = .ok result)
    (rest : List Char) :
    Reads levels (chosenReader choices) (blanks ++ (stringText pieces ++ rest)) result rest := by
  refine (reads_valueStart areBlank rfl _).bind
    (Reads.placed ((reads_string_of_standFor standFor rest).bind ?_))
  rw [isChosen]
  exact .pure result

theorem onlyGives_chosenReader (areBlank : AreBlank blanks) (rest : List Char) :
    OnlyGives (chosenReader choices) (blanks ++ (stringText pieces ++ rest))
      (UpTo rest fun result => ∃ name, StandFor pieces name ∧
        chosen choices name = .ok result) := by
  refine (reads_valueStart areBlank rfl _).goesOn.onlyGives
    (OnlyGives.placed ((onlyGives_string pieces rest).after fun name standFor => ?_))
  cases isChosen : chosen choices name with
  | ok result => exact .pure ⟨rfl, name, standFor, isChosen⟩
  | error cause => exact onlyGives_failUnplaced cause

/-- An object that counts as a name has the name for its only key, and nothing for its value. -/
theorem exists_part_of_choice {parts : List (Document.Part (Binding Value))} {last : Blanks}
    {members : List (String × Json)} {result : α} (distinct : DistinctKeys (.object parts last))
    (keys : List.Forall₂ (fun part member => StandFor part.content.key member.1) parts members)
    (values : List.Forall₂ (fun part member => Represents part.content.value member.2)
      parts members)
    (isResult : (choice choices).ofJson (.ofMembers members) = .ok result) :
    ∃ part name, parts = [part] ∧ StandFor part.content.key name ∧
      Represents part.content.value .null ∧ chosen choices name = .ok result := by
  cases distinct with
  | object distinct _ =>
  obtain ⟨sorted, isSorted, perm⟩ := exists_ofMembers (nodup_names distinct keys)
  rw [isSorted] at isResult
  rcases sorted with _ | ⟨⟨name, content⟩, _ | ⟨further, others⟩⟩
  · cases isResult
  · obtain rfl := List.singleton_perm.mp perm
    rcases keys with _ | ⟨standFor, _ | _⟩
    rcases values with _ | ⟨represents, _⟩
    obtain ⟨found, isChosen, isResult⟩ := exists_of_bind isResult
    obtain ⟨_, isNothing, same⟩ := exists_of_bind isResult
    cases same
    cases content with
    | null => exact ⟨_, name, rfl, standFor, represents, isChosen⟩
    | _ => cases isNothing
  · cases isResult

/-- Reads the opening bracket and the only member of an object that counts as a name. -/
abbrev choiceMember (choices : List (String × α)) : Reader α := do
  skip
  let value ← chosenReader choices
  Reader.colon
  nothing.reader
  return value

theorem reads_choiceMember {part : Document.Part (Binding Value)} {name : String} {result : α}
    (standFor : StandFor part.content.key name) (isChosen : chosen choices name = .ok result)
    (isNull : Represents part.content.value .null) {rest : List Char} (ends : Ends rest) :
    Reads levels (choiceMember choices)
      ('\x7b' :: (part.front.text ++ (stringText part.content.key ++ (part.content.gap.text ++
        ':' :: (part.content.space.text ++ (part.content.value.text ++ rest))))))
      result rest := by
  have takes : Takes levels nothing.reader part.content.value.text () :=
    (agrees_nothing levels).takes isNull (isNull.eq_null ▸ .null) rfl
  exact (reads_skip _ _).bind ((reads_chosenReader part.front.areBlank standFor isChosen _).bind
    ((reads_colon part.content.gap _).bind
      ((takes.reads _ rest part.content.space.areBlank ends).bind (.pure result))))

/-- A part that counts as a name: its key stands for the name, and it has nothing for its value. -/
def IsNamed (levels : ℕ) (choices : List (String × α)) (part : Document.Part (Binding Value))
    (result : α) : Prop :=
  (∃ name, StandFor part.content.key name ∧ chosen choices name = .ok result) ∧
    ReadsAs levels part.content.value .null

theorem onlyGives_choiceMember (levels : ℕ) (choices : List (String × α))
    (part : Document.Part (Binding Value)) {rest : List Char}
    (ends : Ends rest) :
    OnlyGives (choiceMember choices)
      ('\x7b' :: (part.front.text ++ (stringText part.content.key ++ (part.content.gap.text ++
        ':' :: (part.content.space.text ++ (part.content.value.text ++ rest))))))
      (UpTo rest (IsNamed levels choices part)) := by
  refine (reads_skip _ _).goesOn.onlyGives
    ((onlyGives_chosenReader part.front.areBlank _).after fun result isChosen =>
      (reads_colon part.content.gap _).goesOn.onlyGives
        (((agrees_nothing levels).onlyTakes part.content.value _ rest
          part.content.space.areBlank ends).after fun _ isNothing => ?_))
  obtain ⟨json, readsAs, isNothing⟩ := isNothing
  cases json with
  | null => exact .pure ⟨rfl, isChosen, readsAs⟩
  | _ => cases isNothing

/-- Whatever is read of an object for a name, the name is its only key. -/
theorem onlyGives_choiceObject {parts : List (Document.Part (Binding Value))} {last : Blanks}
    (rest : List Char) :
    OnlyGives
      (do
        let value ← deeper (choiceMember choices)
        match ← nextVisible with
        | none => fail .endInObject
        | some '\x7d' =>
          skip
          return value
        | some _ => fail .missingValue)
      ('\x7b' :: (behindOpening '\x7d' last (memberTexts Value.text parts) ++ rest))
      (UpTo rest (Gets (levels + 1) (choice choices) (.object parts last))) := by
  cases parts with
  | nil =>
      rw [behindOpening_eq_remaining, memberTexts, List.map_nil, remaining_nil]
      have noName : OnlyGives (chosenReader choices) (last.text ++ '\x7d' :: rest)
          fun _ _ => False :=
        (reads_valueStart last.areBlank rfl rest).goesOn.onlyGives (never_refuse _).onlyGives
      exact (OnlyGives.deeper ((reads_skip _ _).goesOn.onlyGives noName.stop)).stop
  | cons part parts =>
      rw [behindOpening_eq_remaining, remaining_memberTexts, if_pos rfl, List.nil_append]
      have ends := ends_remaining (by decide : '\x7d' ∈ _) last (memberTexts Value.text parts)
        part.back.areBlank rest
      have member := onlyGives_choiceMember levels choices part ends
      refine member.deeper.after fun result isNamed => ?_
      cases parts with
      | nil =>
          have lastBlank := areBlank_append part.back.areBlank last.areBlank
          obtain ⟨⟨name, standFor, isChosen⟩, readsAs⟩ := isNamed
          rw [memberTexts, List.map_nil, remaining_nil, ← List.append_assoc]
          refine (reads_nextVisible_cons lastBlank rfl rest).goesOn.onlyGives
            ((reads_skip _ rest).goesOn.onlyGives (.pure ⟨rfl, .ofMembers [(name, .null)],
              readsAs_object (.cons ⟨standFor, readsAs⟩ .nil), ?_⟩))
          exact bind_eq_ok_iff.mpr ⟨result, isChosen, rfl⟩
      | cons further others =>
          rw [remaining_memberTexts]
          exact (reads_nextVisible_cons part.back.areBlank rfl _).goesOn.onlyGives
            (onlyGives_fail _)

theorem agrees_choice : Agrees (levels + 1) (choice choices) where
  takes := by
    intro value json result represents distinct isResult
    refine (skipsBlanks_valueStart _).takes value.begins fun rest _ => ?_
    cases represents with
    | string standFor =>
        rw [Value.text]
        exact (reads_valueStart_here rfl _).bind
          (reads_chosenReader areBlank_nil standFor isResult rest)
    | @object parts last members keys values =>
        obtain ⟨part, name, rfl, standFor, isNull, isChosen⟩ :=
          exists_part_of_choice distinct keys values isResult
        rw [text_object, List.cons_append, behindOpening_eq_remaining, remaining_memberTexts,
          if_pos rfl, List.nil_append]
        refine (reads_valueStart_here rfl _).bind
          ((reads_choiceMember standFor isChosen isNull ?_).deeper.bind ?_)
        · exact ends_remaining (by decide) last _ part.back.areBlank rest
        · have lastBlank := areBlank_append part.back.areBlank last.areBlank
          rw [memberTexts, List.map_nil, remaining_nil, ← List.append_assoc]
          exact (reads_nextVisible_cons lastBlank rfl rest).bind
            ((reads_skip _ rest).bind (.pure result))
    | _ => cases isResult
  onlyTakes value := by
    refine (skipsBlanks_valueStart _).onlyTakes value.begins fun rest _ => ?_
    obtain ⟨first, others, isText, visible, _, starts⟩ := value.exists_first
    by_cases isQuote : first = '"'
    · obtain ⟨pieces, rfl⟩ := (isQuote ▸ starts).isString
      rw [Value.text]
      refine (reads_valueStart_here rfl _).goesOn.onlyGives
        ((onlyGives_chosenReader areBlank_nil rest).upTo fun result isNamed => ?_)
      obtain ⟨name, standFor, isChosen⟩ := isNamed
      exact ⟨.string name, readsAs_string standFor, isChosen⟩
    · by_cases isBrace : first = '\x7b'
      · obtain ⟨parts, last, rfl⟩ := (isBrace ▸ starts).isObject
        rw [text_object]
        refine (reads_valueStart_here rfl _).goesOn.onlyGives ?_
        exact onlyGives_choiceObject rest
      · rw [isText]
        refine (reads_valueStart_here visible _).goesOn.onlyGives ?_
        split
        · exact absurd rfl isQuote
        · exact absurd rfl isBrace
        · exact (never_failAtNext _).onlyGives

end Choices

end Built

end Decoder

end SampleMethods.Json
