import Mathlib.Data.List.Nodup
import Mathlib.Data.List.Perm.Basic
import SampleMethods.Proofs.Json.Agreement

/-!
# Records read what values hold

A record may be written as an object or as the list of its fields. The decoder of a closed
shape agrees, if the decoders of its fields do and the order of different fields makes no
difference (`agrees_record`). A text has the members in the order in which they are written,
and a value has them in the order of their names.
-/

set_option autoImplicit false

namespace SampleMethods.Json.Decoder.Shape

open Reader Document

variable {α : Type} {levels : ℕ} {shape : Shape α} {record result : α} {names : List String}
  {members : List (String × Json)} {changes : List (α → α)}

/-! ## What members change -/

/-- The changes that different fields make can be made in either order. -/
def Independent (shape : Shape α) : Prop :=
  ∀ first ∈ shape.fields, ∀ second ∈ shape.fields, first.name ≠ second.name →
    ∀ {json other change otherChange}, first.decoder.ofJson json = .ok change →
      second.decoder.ofJson other = .ok otherChange →
      ∀ record, change (otherChange record) = otherChange (change record)

/-- The member is a field, and its value makes the change. -/
def Makes (shape : Shape α) (member : String × Json) (change : α → α) : Prop :=
  ∃ field, shape.field? member.1 = some field ∧ field.decoder.ofJson member.2 = .ok change

/-- No required field is missing among the names. -/
def IsComplete (shape : Shape α) (names : List String) : Prop :=
  ∀ field ∈ shape.fields, field.required = true → field.name ∈ names

/-- The record after the changes, from the first one on. -/
def changed (record : α) (changes : List (α → α)) : α :=
  changes.foldl (fun record change => change record) record

theorem complete_eq_ok_iff :
    shape.complete names record = .ok result ↔ shape.IsComplete names ∧ record = result := by
  rw [complete]
  cases isMissing : shape.fields.find?
      fun field => field.required && !names.contains field.name with
  | some field =>
      have missing := List.find?_some isMissing
      simp only [Bool.and_eq_true, Bool.not_eq_true', List.contains_eq_mem,
        decide_eq_false_iff_not] at missing
      have isField := List.mem_of_find?_eq_some isMissing
      refine iff_of_false (by simp) fun made => ?_
      exact missing.2 (made.1 field isField missing.1)
  | none =>
      have isComplete : shape.IsComplete names := by
        intro field isField required
        by_contra missing
        exact List.find?_eq_none.mp isMissing field isField (by simp [required, missing])
      simp only [isComplete, true_and]
      exact ⟨Except.ok.inj, congrArg Except.ok⟩

theorem IsComplete.of_perm {others : List String} (isComplete : shape.IsComplete names)
    (perm : names.Perm others) : shape.IsComplete others :=
  fun field isField required => perm.mem_iff.mp (isComplete field isField required)

/-- The members of a closed object make their changes one after the other. -/
theorem ofMembers_eq_ok_iff (closed : shape.closed = true) :
    shape.ofMembers members names record = .ok result ↔
      ∃ changes, List.Forall₂ shape.Makes members changes ∧
        shape.IsComplete (members.map (·.1) ++ names) ∧ changed record changes = result := by
  induction members generalizing names record with
  | nil =>
      rw [ofMembers, complete_eq_ok_iff]
      constructor
      · rintro ⟨isComplete, same⟩
        exact ⟨[], .nil, isComplete, same⟩
      · rintro ⟨_, ⟨⟩, isComplete, same⟩
        exact ⟨isComplete, same⟩
  | cons member members ih =>
      obtain ⟨name, value⟩ := member
      have moved : (members.map (·.1) ++ name :: names).Perm
          (((name, value) :: members).map (·.1) ++ names) := List.perm_middle
      rw [ofMembers]
      cases isField : shape.field? name with
      | none =>
          simp only [closed, if_true]
          refine iff_of_false (fun succeeds => nomatch succeeds) ?_
          rintro ⟨_, _ | ⟨⟨field, isSome, _⟩, _⟩, _⟩
          cases isField.symm.trans isSome
      | some field =>
          simp only [bind_eq_ok_iff, ih]
          constructor
          · rintro ⟨change, isChange, changes, makes, isComplete, same⟩
            exact ⟨change :: changes, .cons ⟨field, isField, isChange⟩ makes,
              isComplete.of_perm moved, same⟩
          · rintro ⟨_, _ | ⟨⟨other, isOther, isChange⟩, makes⟩, isComplete, same⟩
            cases isField.symm.trans isOther
            exact ⟨_, isChange, _, makes, isComplete.of_perm moved.symm, same⟩

section Order

variable {others : List (String × Json)} (independent : shape.Independent)
  (distinct : (members.map (·.1)).Nodup)

include distinct in
/-- Two changes that members make are changes of different fields, or they are one change. -/
theorem makes_commute (independent : shape.Independent)
    (makes : List.Forall₂ shape.Makes members changes) :
    ∀ first ∈ changes, ∀ second ∈ changes, ∀ record,
      second (first record) = first (second record) := by
  intro first isFirst second isSecond record
  obtain ⟨member, isMember, field, isField, isChange⟩ := exists_head makes isFirst
  obtain ⟨other, isOther, otherField, isOtherField, isOtherChange⟩ := exists_head makes isSecond
  by_cases same : member.1 = other.1
  · obtain rfl := List.inj_on_of_nodup_map distinct isMember isOther same
    cases isField.symm.trans isOtherField
    cases isChange.symm.trans isOtherChange
    rfl
  · have isName := List.find?_some isField
    have isOtherName := List.find?_some isOtherField
    rw [beq_iff_eq] at isName isOtherName
    refine independent otherField (List.mem_of_find?_eq_some isOtherField) field
      (List.mem_of_find?_eq_some isField) ?_ isOtherChange isChange record
    rw [isName, isOtherName]
    exact Ne.symm same

include independent distinct in
/-- In another order the members make the same changes in that order. -/
theorem exists_makes_of_perm (perm : others.Perm members)
    (makes : List.Forall₂ shape.Makes members changes) :
    ∃ otherChanges, List.Forall₂ shape.Makes others otherChanges ∧
      changed record otherChanges = changed record changes := by
  obtain ⟨otherChanges, otherMakes, permChanges⟩ := List.perm_comp_forall₂ perm makes
  exact ⟨otherChanges, otherMakes,
    (permChanges.symm.foldl_eq' (makes_commute distinct independent makes) record).symm⟩

include independent distinct in
/-- **The members of an object make their changes**, whatever order they are in. -/
theorem ofJson_ofMembers_eq_ok_iff (closed : shape.closed = true) :
    shape.ofJson (.ofMembers members) = .ok result ↔
      ∃ changes, List.Forall₂ shape.Makes members changes ∧
        shape.IsComplete (members.map (·.1)) ∧ changed shape.blank changes = result := by
  obtain ⟨sorted, isSorted, perm⟩ := exists_ofMembers distinct
  have names := perm.map (·.1)
  rw [isSorted, ofJson, ofMembers_eq_ok_iff closed, List.append_nil]
  constructor
  · rintro ⟨changes, makes, isComplete, rfl⟩
    obtain ⟨others, otherMakes, same⟩ := exists_makes_of_perm independent
      (names.nodup_iff.mpr distinct) perm.symm makes
    exact ⟨others, otherMakes, isComplete.of_perm names, same⟩
  · rintro ⟨changes, makes, isComplete, rfl⟩
    obtain ⟨others, otherMakes, same⟩ := exists_makes_of_perm independent distinct perm makes
    exact ⟨others, otherMakes, isComplete.of_perm names.symm, same⟩

end Order

/-! ## Members in text -/

section Members

variable {parts : List (Document.Part (Binding Value))} {last : Blanks} {blanks rest : List Char}
  {changes : List (α → α)}

/-- The key of the part stands for the name at its place, which is the name of a field, and the
field takes the value for the change. -/
def Fits (levels : ℕ) (shape : Shape α) (part : Document.Part (Binding Value))
    (given : String × (α → α)) : Prop :=
  StandFor part.content.key given.1 ∧ ∃ field, shape.field? given.1 = some field ∧
    Takes levels field.decoder.reader part.content.value.text given.2

/-- Members change a record one after the other, from wherever in the object on. -/
theorem reads_readMembers_parts {rounds : ℕ} {given : List (String × (α → α))}
    (fits : List.Forall₂ (Fits levels shape) parts given)
    (distinct : (given.map (·.1) ++ names).Nodup)
    (isComplete : shape.IsComplete (given.map (·.1) ++ names)) (enough : parts.length < rounds)
    (areBlank : AreBlank blanks) (rest : List Char) :
    Reads levels (shape.readMembers rounds names record)
      (blanks ++ (remaining names.isEmpty '\x7d' last (memberTexts Value.text parts) ++ rest))
      (changed record (given.map (·.2))) ('\x7d' :: rest) := by
  induction fits generalizing rounds names record blanks with
  | nil =>
      obtain ⟨rounds, rfl⟩ := exists_round enough
      refine (reads_hasMember_nil _ last areBlank rest).bind ?_
      have completes : shape.complete names record = .ok record :=
        complete_eq_ok_iff.mpr ⟨isComplete, rfl⟩
      simp only [completes]
      exact .pure record
  | @cons part given parts others fits _ ih =>
      obtain ⟨rounds, rfl⟩ := exists_round enough
      obtain ⟨standFor, field, isField, takes⟩ := fits
      have moved : ((given :: others).map (·.1) ++ names).Perm
          (others.map (·.1) ++ given.1 :: names) := List.perm_middle.symm
      have noRepeat : names.contains given.1 = false := by
        have isNew := (List.nodup_cons.mp distinct).1
        simpa using fun repeated => isNew (List.mem_append_right _ repeated)
      have ends := ends_remaining (by decide : '\x7d' ∈ _) last (memberTexts Value.text parts)
        part.back.areBlank rest
      refine (reads_hasMember_cons _ last part parts areBlank rest).bind
        ((reads_string_of_standFor standFor _).bind ?_)
      simp only [isField, noRepeat, Bool.false_eq_true, if_false]
      exact (reads_colon part.content.gap _).bind
        ((takes.reads _ _ part.content.space.areBlank ends).bind
          (ih (moved.nodup_iff.mp distinct) (isComplete.of_perm moved)
            (Nat.lt_of_succ_lt_succ enough) part.back.areBlank))

/-- **The members of an object change the blank record one after the other.** -/
theorem reads_object {given : List (String × (α → α))}
    (fits : List.Forall₂ (Fits levels shape) parts given) (distinct : (given.map (·.1)).Nodup)
    (isComplete : shape.IsComplete (given.map (·.1))) (rest : List Char) :
    Reads (levels + 1) shape.reader ((Value.object parts last).text ++ rest)
      (changed shape.blank (given.map (·.2))) rest := by
  rw [text_object]
  refine (reads_valueStart_here rfl _).bind (.enclosed (.get fun _ _ => ?_) (reads_objectEnd rest))
  have enough := length_lt_rounds '\x7d' last
    (fun part => part.textWith (part.content.textWith part.content.value.text)) parts rest
  rw [← List.append_nil (given.map (·.1))] at distinct isComplete
  exact reads_readMembers_parts fits distinct isComplete enough areBlank_nil rest

/-- What was read of a part: a name of a field that its key stands for, and the change that the
field gets from its value. -/
def WasRead (levels : ℕ) (shape : Shape α) (part : Document.Part (Binding Value))
    (given : String × (α → α)) : Prop :=
  StandFor part.content.key given.1 ∧ ∃ field, shape.field? given.1 = some field ∧
    field.decoder.Gets levels part.content.value given.2

/-- A record is read from members with different names, each of which is a field. -/
theorem onlyGives_readMembers (closed : shape.closed = true)
    (agrees : ∀ field ∈ shape.fields, field.decoder.Agrees levels) (rounds : ℕ)
    (distinct : names.Nodup) (areBlank : AreBlank blanks) (rest : List Char) :
    OnlyGives (shape.readMembers rounds names record)
      (blanks ++ (remaining names.isEmpty '\x7d' last (memberTexts Value.text parts) ++ rest))
      (UpTo ('\x7d' :: rest) fun result => ∃ given,
        List.Forall₂ (WasRead levels shape) parts given ∧
        (given.map (·.1) ++ names).Nodup ∧ shape.IsComplete (given.map (·.1) ++ names) ∧
        changed record (given.map (·.2)) = result) := by
  induction parts generalizing rounds names record blanks with
  | nil =>
      cases rounds with
      | zero => exact onlyGives_fail _
      | succ rounds =>
          refine (reads_hasMember_nil _ last areBlank rest).goesOn.onlyGives ?_
          cases completes : shape.complete names record with
          | error cause => exact onlyGives_failUnplaced cause
          | ok result =>
              obtain ⟨isComplete, same⟩ := complete_eq_ok_iff.mp completes
              exact .pure ⟨rfl, [], .nil, distinct, isComplete, same⟩
  | cons part parts ih =>
      cases rounds with
      | zero => exact onlyGives_fail _
      | succ rounds =>
          have ends := ends_remaining (by decide : '\x7d' ∈ _) last (memberTexts Value.text parts)
            part.back.areBlank rest
          refine (reads_hasMember_cons _ last part parts areBlank rest).goesOn.onlyGives
            ((onlyGives_string _ _).after fun name standFor => ?_)
          cases isField : shape.field? name with
          | none =>
              simp only [closed, if_true]
              exact (onlyGives_failUnplaced _).stop
          | some field =>
              have fieldAgrees := agrees field (List.mem_of_find?_eq_some isField)
              cases isRepeat : names.contains name with
              | true =>
                  simp only [if_true]
                  exact (onlyGives_failUnplaced _).stop
              | false =>
                  have isNew : name ∉ names := by simpa using isRepeat
                  simp only [Bool.false_eq_true, if_false]
                  refine (reads_colon part.content.gap _).goesOn.onlyGives
                    ((fieldAgrees.onlyTakes part.content.value _ _ part.content.space.areBlank
                      ends).after fun change gets => ?_)
                  refine (ih rounds (List.nodup_cons.mpr ⟨isNew, distinct⟩)
                    part.back.areBlank).upTo fun result isResult => ?_
                  obtain ⟨given, wereRead, allDistinct, isComplete, same⟩ := isResult
                  have moved : (given.map (·.1) ++ name :: names).Perm
                      (((name, change) :: given).map (·.1) ++ names) := List.perm_middle
                  exact ⟨(name, change) :: given, .cons ⟨standFor, field, isField, gets⟩ wereRead,
                    moved.nodup_iff.mp allDistinct, isComplete.of_perm moved, same⟩

end Members

/-! ## Lists of fields -/

section Elements

variable {fields : List (Field α)} {place : ℕ} {parts : List (Document.Part Value)}
  {items : List Json} {last : Blanks} {blanks rest : List Char}

/-- Where the record is made, nothing but blanks is left of the list. -/
theorem reads_readElements (agrees : ∀ field ∈ fields, field.decoder.Agrees levels)
    (represents : List.Forall₂ (fun part item => Represents part.content item) parts items)
    (distinct : ∀ part ∈ parts, DistinctKeys part.content)
    (isResult : shape.ofItems fields place items record = .ok result) (areBlank : AreBlank blanks)
    (rest : List Char) :
    ∃ left, AreBlank left ∧ Reads levels (shape.readElements fields place record)
      (blanks ++ (remaining (place == 0) ']' last (elementTexts Value.text parts) ++ rest)) result
      (left ++ ']' :: rest) := by
  induction fields generalizing place parts items record blanks with
  | nil =>
      cases represents with
      | nil =>
          cases isResult
          refine ⟨blanks ++ last.text, areBlank_append areBlank last.areBlank, ?_⟩
          rw [elementTexts, List.map_nil, remaining_nil, List.append_assoc]
          exact .pure _
      | cons => cases isResult
  | cons field fields ih =>
      obtain ⟨fieldAgrees, fieldsAgree⟩ := List.forall_mem_cons.mp agrees
      cases represents with
      | nil =>
          refine ⟨[], areBlank_nil, (reads_hasElement_nil _ last areBlank rest).bind ?_⟩
          simp only [ofItems] at isResult
          cases isRequired : (field :: fields).findIdx? (·.required) with
          | some later =>
              rw [isRequired] at isResult
              cases isResult
          | none =>
              rw [isRequired] at isResult
              cases isResult
              simp only
              exact .pure _
      | @cons part item parts items represents others =>
          obtain ⟨partDistinct, partsDistinct⟩ := List.forall_mem_cons.mp distinct
          obtain ⟨change, isChange, isResult⟩ := exists_of_bind isResult
          have takes := fieldAgrees.takes represents partDistinct isChange
          obtain ⟨left, leftBlank, reads⟩ :=
            ih fieldsAgree others partsDistinct isResult part.back.areBlank
          have ends := ends_remaining (by decide : ']' ∈ _) last (elementTexts Value.text parts)
            part.back.areBlank rest
          exact ⟨left, leftBlank,
            (reads_hasElement_cons _ last part.front takes.begins areBlank rest).bind
              ((takes.reads [] _ areBlank_nil ends).bind reads)⟩

/-- Something else than the end of a list comes next. -/
def GoesOnWith (rest : List Char) : Prop :=
  ∃ blanks first others, AreBlank blanks ∧ isBlank first = false ∧ first ≠ ']' ∧
    rest = blanks ++ first :: others

/-- In front of an element a list does not end. -/
theorem goesOnWith_remaining (first : Bool) (part : Document.Part Value)
    (parts : List (Document.Part Value)) (areBlank : AreBlank blanks) (rest : List Char) :
    GoesOnWith (blanks ++
      (remaining first ']' last (elementTexts Value.text (part :: parts)) ++ rest)) := by
  rw [elementTexts, List.map_cons, remaining_cons, Document.Part.textWith]
  cases first with
  | true =>
      obtain ⟨first, others, isText, visible, notEnd⟩ := part.content.begins
      simp only [isText, if_true, List.nil_append, List.append_assoc, List.cons_append]
      rw [← List.append_assoc]
      exact ⟨_, first, _, areBlank_append areBlank part.front.areBlank, visible, notEnd, rfl⟩
  | false => exact ⟨blanks, ',', _, areBlank, by decide, by decide, rfl⟩

theorem onlyGives_listEnd {property : Unit → List Char → Prop} (goesOn : GoesOnWith rest) :
    OnlyGives listEnd rest property := by
  obtain ⟨blanks, first, others, areBlank, visible, notEnd, rfl⟩ := goesOn
  refine (reads_nextVisible_cons areBlank visible others).goesOn.onlyGives ?_
  split
  · exact onlyGives_failAtNext _
  · rename_i isEnd
    exact absurd (Option.some.inj isEnd) notEnd
  · refine Never.onlyGives (.behind fun _ => .behind fun _ => ?_)
    split_ifs
    · exact never_failAtNext _
    · exact never_failAtNext _
  · exact onlyGives_failAtNext _

/-- A record is read from elements that the fields take, or something is left of the list. -/
theorem onlyGives_readElements (agrees : ∀ field ∈ fields, field.decoder.Agrees levels)
    (areBlank : AreBlank blanks) (rest : List Char) :
    OnlyGives (shape.readElements fields place record)
      (blanks ++ (remaining (place == 0) ']' last (elementTexts Value.text parts) ++ rest))
      fun result left => GoesOnWith left ∨
        (∃ blanks, AreBlank blanks ∧ left = blanks ++ ']' :: rest) ∧
          ∃ items, List.Forall₂ (fun part item => ReadsAs levels part.content item) parts items ∧
            shape.ofItems fields place items record = .ok result := by
  induction fields generalizing place parts record blanks with
  | nil =>
      refine .pure ?_
      cases parts with
      | nil =>
          refine .inr ⟨⟨blanks ++ last.text, areBlank_append areBlank last.areBlank, ?_⟩, [], .nil,
            rfl⟩
          rw [elementTexts, List.map_nil, remaining_nil, List.append_assoc]
      | cons part parts =>
          exact .inl (goesOnWith_remaining _ part parts areBlank rest)
  | cons field fields ih =>
      obtain ⟨fieldAgrees, fieldsAgree⟩ := List.forall_mem_cons.mp agrees
      cases parts with
      | nil =>
          refine (reads_hasElement_nil _ last areBlank rest).goesOn.onlyGives ?_
          cases isRequired : (field :: fields).findIdx? (·.required) with
          | some later =>
              simp only
              exact onlyGives_failUnplaced _
          | none =>
              simp only
              refine .pure (.inr ⟨⟨[], areBlank_nil, rfl⟩, [], .nil, ?_⟩)
              simp only [ofItems, isRequired]
      | cons part parts =>
          have ends := ends_remaining (by decide : ']' ∈ _) last (elementTexts Value.text parts)
            part.back.areBlank rest
          have taken := fieldAgrees.onlyTakes part.content [] _ areBlank_nil ends
          refine (reads_hasElement_cons _ last part.front part.content.begins areBlank
            rest).goesOn.onlyGives (taken.after fun change gets => ?_)
          refine (ih fieldsAgree part.back.areBlank).mono fun result left isLeft => ?_
          obtain ⟨item, readsAs, isChange⟩ := gets
          refine isLeft.imp_right fun made => ?_
          obtain ⟨isEnd, items, each, isResult⟩ := made
          exact ⟨isEnd, item :: items, .cons readsAs each,
            bind_eq_ok_iff.mpr ⟨change, isChange, isResult⟩⟩

end Elements

/-! ## Records -/

/-- What members make of a record is what their parts fit, if the fields agree. -/
theorem exists_fits {parts : List (Document.Part (Binding Value))}
    (agrees : ∀ field ∈ shape.fields, field.decoder.Agrees levels)
    (keys : List.Forall₂ (fun part member => StandFor part.content.key member.1) parts members)
    (values : List.Forall₂ (fun part member => Represents part.content.value member.2)
      parts members)
    (distinct : ∀ part ∈ parts, DistinctKeys part.content.value)
    (makes : List.Forall₂ shape.Makes members changes) :
    ∃ given, List.Forall₂ (Fits levels shape) parts given ∧
      given.map (·.1) = members.map (·.1) ∧ given.map (·.2) = changes := by
  induction keys generalizing changes with
  | nil =>
      cases makes
      exact ⟨[], .nil, rfl, rfl⟩
  | @cons part member parts members standFor _ ih =>
      cases values with
      | cons represents values =>
      cases makes with
      | @cons _ change _ changes made makes =>
          obtain ⟨field, isField, isChange⟩ := made
          obtain ⟨partDistinct, partsDistinct⟩ := List.forall_mem_cons.mp distinct
          obtain ⟨given, fits, sameNames, sameChanges⟩ := ih values partsDistinct makes
          have takes := (agrees field (List.mem_of_find?_eq_some isField)).takes represents
            partDistinct isChange
          exact ⟨(member.1, change) :: given, .cons ⟨standFor, field, isField, takes⟩ fits,
            congrArg (member.1 :: ·) sameNames, congrArg (change :: ·) sameChanges⟩

/-- What was read of parts is what the members of an object make. -/
theorem exists_members {parts : List (Document.Part (Binding Value))}
    {given : List (String × (α → α))}
    (wereRead : List.Forall₂ (WasRead levels shape) parts given) :
    ∃ members, List.Forall₂ (fun part (member : String × Json) =>
        StandFor part.content.key member.1 ∧ ReadsAs levels part.content.value member.2)
          parts members ∧
      members.map (·.1) = given.map (·.1) ∧
      List.Forall₂ shape.Makes members (given.map (·.2)) := by
  induction wereRead with
  | nil => exact ⟨[], .nil, rfl, .nil⟩
  | @cons part given parts others wasRead _ ih =>
      obtain ⟨standFor, field, isField, json, readsAs, isChange⟩ := wasRead
      obtain ⟨members, each, sameNames, makes⟩ := ih
      exact ⟨(given.1, json) :: members, .cons ⟨standFor, readsAs⟩ each,
        congrArg (given.1 :: ·) sameNames, .cons ⟨field, isField, isChange⟩ makes⟩

section Forms

variable {last : Blanks}

/-- A list whose items make the record is read as the record. -/
theorem reads_list_of_ofItems {parts : List (Document.Part Value)} {items : List Json}
    (agrees : ∀ field ∈ shape.fields, field.decoder.Agrees levels)
    (represents : List.Forall₂ (fun part item => Represents part.content item) parts items)
    (distinct : ∀ part ∈ parts, DistinctKeys part.content)
    (isResult : shape.ofItems shape.fields 0 items shape.blank = .ok result) (rest : List Char) :
    Reads (levels + 1) shape.reader ((Value.array parts last).text ++ rest) result rest := by
  obtain ⟨left, leftBlank, reads⟩ :=
    reads_readElements agrees represents distinct isResult areBlank_nil rest
  rw [text_array]
  refine (reads_valueStart_here rfl _).bind (reads.enclosed ?_)
  exact (reads_nextVisible_cons leftBlank rfl rest).bind (reads_skip ']' rest)

/-- A list is read only as the record that its items make. -/
theorem onlyGives_list_ofItems (agrees : ∀ field ∈ shape.fields, field.decoder.Agrees levels)
    (parts : List (Document.Part Value)) (last : Blanks) (rest : List Char) :
    OnlyGives shape.reader ((Value.array parts last).text ++ rest)
      (UpTo rest ((Decoder.record shape).Gets (levels + 1) (.array parts last))) := by
  rw [text_array]
  refine (reads_valueStart_here rfl _).goesOn.onlyGives
    ((onlyGives_readElements agrees areBlank_nil rest).enclosed fun result left isLeft => ?_)
  rcases isLeft with goesOn | ⟨⟨blanks, areBlank, rfl⟩, items, each, isResult⟩
  · exact onlyGives_listEnd goesOn
  · exact (reads_nextVisible_cons areBlank rfl rest).goesOn.onlyGives
      ((reads_skip ']' rest).onlyGives ⟨rfl, .array items, readsAs_array each, isResult⟩)

/-- An object whose members make the record is read as the record. -/
theorem reads_object_of_ofMembers {parts : List (Document.Part (Binding Value))}
    (agrees : ∀ field ∈ shape.fields, field.decoder.Agrees levels)
    (closed : shape.closed = true) (independent : shape.Independent)
    (keys : List.Forall₂ (fun part member => StandFor part.content.key member.1) parts members)
    (values : List.Forall₂ (fun part member => Represents part.content.value member.2)
      parts members)
    (distinct : DistinctKeys (.object parts last))
    (isResult : shape.ofJson (.ofMembers members) = .ok result) (rest : List Char) :
    Reads (levels + 1) shape.reader ((Value.object parts last).text ++ rest) result rest := by
  cases distinct with
  | object differ distinct =>
  have names := nodup_names differ keys
  obtain ⟨changes, makes, isComplete, rfl⟩ :=
    (ofJson_ofMembers_eq_ok_iff independent names closed).mp isResult
  obtain ⟨given, fits, sameNames, rfl⟩ := exists_fits agrees keys values distinct makes
  rw [← sameNames] at names isComplete
  exact reads_object fits names isComplete rest

/-- An object is read only as the record that its members make. -/
theorem onlyGives_object_ofMembers (agrees : ∀ field ∈ shape.fields, field.decoder.Agrees levels)
    (closed : shape.closed = true) (independent : shape.Independent)
    (parts : List (Document.Part (Binding Value))) (last : Blanks) (rest : List Char) :
    OnlyGives shape.reader ((Value.object parts last).text ++ rest)
      (UpTo rest ((Decoder.record shape).Gets (levels + 1) (.object parts last))) := by
  rw [text_object]
  refine (reads_valueStart_here rfl _).goesOn.onlyGives ((onlyGives_object (.get fun _ _ _ =>
    onlyGives_readMembers closed agrees _ List.nodup_nil areBlank_nil rest)).upTo
      fun result isResult => ?_)
  obtain ⟨given, wereRead, distinct, isComplete, rfl⟩ := isResult
  obtain ⟨members, each, sameNames, makes⟩ := exists_members wereRead
  rw [List.append_nil, ← sameNames] at distinct isComplete
  exact ⟨.ofMembers members, readsAs_object each,
    (ofJson_ofMembers_eq_ok_iff independent distinct closed).mpr ⟨_, makes, isComplete, rfl⟩⟩

end Forms

/-- **The decoder of a closed shape reads what values hold**, if the decoders of its fields do. -/
theorem agrees_record (agrees : ∀ field ∈ shape.fields, field.decoder.Agrees levels)
    (closed : shape.closed = true) (independent : shape.Independent) :
    (Decoder.record shape).Agrees (levels + 1) where
  takes := by
    intro value json result represents distinct isResult
    refine (skipsBlanks_valueStart _).takes value.begins fun rest _ => ?_
    cases represents with
    | array each =>
        cases distinct with
        | array distinct => exact reads_list_of_ofItems agrees each distinct isResult rest
    | object keys values =>
        exact reads_object_of_ofMembers agrees closed independent keys values distinct isResult rest
    | _ => cases isResult
  onlyTakes value := by
    refine (skipsBlanks_valueStart _).onlyTakes value.begins fun rest _ => ?_
    obtain ⟨first, others, isText, visible, _, starts⟩ := value.exists_first
    by_cases isList : first = '['
    · obtain ⟨parts, last, rfl⟩ := (isList ▸ starts).isArray
      exact onlyGives_list_ofItems agrees parts last rest
    · by_cases isObject : first = '\x7b'
      · obtain ⟨parts, last, rfl⟩ := (isObject ▸ starts).isObject
        exact onlyGives_object_ofMembers agrees closed independent parts last rest
      · rw [isText]
        refine (reads_valueStart_here visible _).goesOn.onlyGives ?_
        split
        · exact absurd rfl isList
        · exact absurd rfl isObject
        · exact (never_refuse _).onlyGives

end SampleMethods.Json.Decoder.Shape
