import Mathlib.Data.Nat.Notation
import SampleMethods.Json.Decoder
import SampleMethods.Proofs.Json.Scalars

/-!
# Lists and records are read back

A list or an object is its parts with commas between them, and blanks in certain places
(`Spacing`). With any spacing, a list is taken for the list of its elements, if each of
them is taken for itself (`takes_list`), and an object for the blank record, changed by each of its members
(`takes_record`). The members need not be in the order of the fields, and fields that are
not required may be left out; no name may come twice.
-/

set_option autoImplicit false

namespace SampleMethods.Json

open Reader

/-! ## Parts with blanks between them -/

/-- The blanks between the parts of a list or an object. -/
structure Spacing where
  /-- In front of every part. -/
  front : List Char
  /-- In front of the closing bracket. -/
  back : List Char
  /-- Between the name and the value of a member. -/
  gap : List Char
  frontBlank : AreBlank front
  backBlank : AreBlank back
  gapBlank : AreBlank gap

namespace Spacing

variable (spacing : Spacing)

/-- The parts behind the first one, and the closing bracket. -/
def behindFirst (closing : Char) : List (List Char) → List Char
  | [] => spacing.back ++ [closing]
  | part :: parts => ',' :: (spacing.front ++ (part ++ behindFirst closing parts))

/-- The parts behind the opening bracket, and the closing one. Nothing stands between the
brackets if there are no parts. -/
def behindOpening (closing : Char) : List (List Char) → List Char
  | [] => [closing]
  | part :: parts => spacing.front ++ (part ++ spacing.behindFirst closing parts)

/-- A member of an object. -/
def member (name : String) (value : List Char) : List Char :=
  (quoted name).toList ++ ':' :: (spacing.gap ++ value)

variable (closing : Char) (parts : List (List Char)) (rest : List Char)

theorem ends_behindFirst {closing : Char} (isClosing : closing ∈ [',', ']', '\x7d']) :
    Ends (spacing.behindFirst closing parts ++ rest) := by
  intro character isHead
  cases parts with
  | cons part parts =>
      cases isHead
      exact .inr List.mem_cons_self
  | nil =>
      rw [behindFirst] at isHead
      cases isBack : spacing.back with
      | nil =>
          rw [isBack] at isHead
          cases isHead
          exact .inr isClosing
      | cons first others =>
          rw [isBack] at isHead
          cases isHead
          exact .inl (spacing.backBlank _ (by rw [isBack]; exact List.mem_cons_self))

theorem length_lt_behindFirst : parts.length < (spacing.behindFirst closing parts).length := by
  induction parts with
  | nil => simp [behindFirst]
  | cons part parts ih =>
      simp only [behindFirst, List.length_cons, List.length_append]
      omega

theorem length_le_behindOpening : parts.length ≤ (spacing.behindOpening closing parts).length := by
  cases parts with
  | nil => exact Nat.zero_le _
  | cons part parts =>
      have := spacing.length_lt_behindFirst closing parts
      simp only [behindOpening, List.length_cons, List.length_append]
      omega

end Spacing

/-! ## The signs between the parts -/

section Signs

variable {levels : ℕ} {blanks : List Char} (areBlank : AreBlank blanks)

theorem Reader.reads_colon (rest : List Char) : Reads levels colon (':' :: rest) () rest :=
  (reads_nextVisible_here rfl rest).bind (reads_skip ':' rest)

theorem Reader.reads_listEnd (rest : List Char) : Reads levels listEnd (']' :: rest) () rest :=
  (reads_nextVisible_here rfl rest).bind (reads_skip ']' rest)

theorem Reader.reads_objectEnd (rest : List Char) : Reads levels objectEnd ('\x7d' :: rest) () rest :=
  (reads_nextVisible_here rfl rest).bind (reads_skip '\x7d' rest)

include areBlank

theorem Reader.reads_hasElement_end (first : Bool) (rest : List Char) :
    Reads levels (hasElement first) (blanks ++ ']' :: rest) false (']' :: rest) :=
  (reads_nextVisible_cons areBlank rfl rest).bind (.pure false)

theorem Reader.reads_hasElement_first {part : List Char} (begins : Begins part) (rest : List Char) :
    Reads levels (hasElement true) (blanks ++ (part ++ rest)) true (part ++ rest) := by
  obtain ⟨first, others, rfl, visible, notEnd⟩ := begins
  refine (reads_nextVisible_cons areBlank visible _).bind ?_
  split
  · rename_i isNone
    cases isNone
  · rename_i isEnd
    exact absurd (Option.some.inj isEnd) notEnd
  · exact .pure true

theorem Reader.reads_hasElement_further {part : List Char} (begins : Begins part)
    (rest : List Char) :
    Reads levels (hasElement false) (',' :: (blanks ++ (part ++ rest))) true (part ++ rest) := by
  obtain ⟨first, others, rfl, visible, notEnd⟩ := begins
  refine (reads_nextVisible_here rfl _).bind
    ((reads_skip _ _).bind ((reads_nextVisible_cons areBlank visible _).bind ?_))
  split
  · rename_i isNone
    cases isNone
  · rename_i isEnd
    exact absurd (Option.some.inj isEnd) notEnd
  · exact .pure true

theorem Reader.reads_hasMember_end (first : Bool) (rest : List Char) :
    Reads levels (hasMember first) (blanks ++ '\x7d' :: rest) false ('\x7d' :: rest) :=
  (reads_nextVisible_cons areBlank rfl rest).bind (.pure false)

end Signs

variable {α : Type} {levels : ℕ} (spacing : Spacing)

/-! ## Lists -/

section Lists

variable {element : Reader α} {values : List α} {text : α → List Char}

/-- Elements behind the first one are read one after the other. -/
theorem Reader.reads_elementsUpTo {rounds : ℕ}
    (each : ∀ value ∈ values, Takes levels element (text value) value)
    (enough : values.length < rounds) (rest : List Char) :
    Reads levels (elementsUpTo element rounds false)
      (spacing.behindFirst ']' (values.map text) ++ rest) values (']' :: rest) := by
  induction values generalizing rounds with
  | nil =>
      obtain ⟨rounds, rfl⟩ := Nat.exists_eq_add_one_of_ne_zero (Nat.pos_iff_ne_zero.mp enough)
      rw [List.map_nil, Spacing.behindFirst, List.append_assoc]
      exact (reads_hasElement_end spacing.backBlank false rest).bind (.pure [])
  | cons value values ih =>
      obtain ⟨rounds, rfl⟩ :=
        Nat.exists_eq_add_one_of_ne_zero (Nat.pos_iff_ne_zero.mp (Nat.zero_lt_of_lt enough))
      obtain ⟨takes, eachRest⟩ := List.forall_mem_cons.mp each
      have ends := spacing.ends_behindFirst (values.map text) rest (by decide : ']' ∈ _)
      rw [List.map_cons, Spacing.behindFirst, List.cons_append, List.append_assoc,
        List.append_assoc]
      exact (reads_hasElement_further spacing.frontBlank takes.begins _).bind
        ((takes.reads [] _ areBlank_nil ends).bind
          ((ih eachRest (Nat.lt_of_succ_lt_succ enough)).bind (.pure _)))

/-- The elements of a list are read one after the other. -/
theorem Reader.reads_elementsUpTo_all {rounds : ℕ}
    (each : ∀ value ∈ values, Takes levels element (text value) value)
    (enough : values.length < rounds) (rest : List Char) :
    Reads levels (elementsUpTo element rounds true)
      (spacing.behindOpening ']' (values.map text) ++ rest) values (']' :: rest) := by
  obtain ⟨rounds, rfl⟩ :=
    Nat.exists_eq_add_one_of_ne_zero (Nat.pos_iff_ne_zero.mp (Nat.zero_lt_of_lt enough))
  cases values with
  | nil => exact (reads_hasElement_end areBlank_nil true rest).bind (.pure [])
  | cons value values =>
      obtain ⟨takes, eachRest⟩ := List.forall_mem_cons.mp each
      have ends := spacing.ends_behindFirst (values.map text) rest (by decide : ']' ∈ _)
      rw [List.map_cons, Spacing.behindOpening, List.append_assoc, List.append_assoc]
      exact (reads_hasElement_first spacing.frontBlank takes.begins _).bind
        ((takes.reads [] _ areBlank_nil ends).bind
          ((reads_elementsUpTo spacing eachRest (Nat.lt_of_succ_lt_succ enough) rest).bind
            (.pure _)))

/-- **A list is read, where each element is read from what is written for it.** -/
theorem Decoder.takes_list {decoder : Decoder α}
    (each : ∀ value ∈ values, Takes levels decoder.reader (text value) value) :
    Takes (levels + 1) (list decoder).reader
      ('[' :: spacing.behindOpening ']' (values.map text)) values where
  begins := ⟨'[', _, rfl, by decide, by decide⟩
  reads blanks rest areBlank _ := by
    refine (reads_valueStart areBlank (by decide) _).bind
      (.enclosed (.get fun _ _ => ?_) (reads_listEnd rest))
    refine reads_elementsUpTo_all spacing each ?_ rest
    have enough := spacing.length_le_behindOpening ']' (values.map text)
    rw [List.length_map] at enough
    rw [List.append_eq, List.length_append]
    omega

end Lists

/-! ## Records -/

section Members

variable (name : String) (value rest : List Char)

/-- A member begins with a quote. -/
theorem Spacing.member_eq :
    ∃ others, spacing.member name value ++ rest = '"' :: others := by
  rw [member, toList_quoted]
  exact ⟨_, rfl⟩

theorem Reader.reads_hasMember_first :
    Reads levels (hasMember true) (spacing.front ++ (spacing.member name value ++ rest)) true
      (spacing.member name value ++ rest) := by
  obtain ⟨others, isMember⟩ := spacing.member_eq name value rest
  rw [isMember]
  exact (reads_nextVisible_cons spacing.frontBlank rfl others).bind
    ((Reads.pure _).bind (.pure true))

theorem Reader.reads_hasMember_further :
    Reads levels (hasMember false) (',' :: (spacing.front ++ (spacing.member name value ++ rest)))
      true (spacing.member name value ++ rest) := by
  obtain ⟨others, isMember⟩ := spacing.member_eq name value rest
  rw [isMember]
  exact (reads_nextVisible_here rfl _).bind
    ((reads_skip _ _).bind ((reads_nextVisible_cons spacing.frontBlank rfl others).bind (.pure true)))

end Members

namespace Decoder.Shape

/-- A member of an object that gives a field: the name of the field, the text of the value,
and how the value changes a record. -/
structure Given (α : Type) where
  name : String
  text : List Char
  change : α → α

variable {shape : Shape α}

/-- The field with the name takes the text for the change. -/
def Given.Fits (levels : ℕ) (shape : Shape α) (given : Given α) : Prop :=
  ∃ field, shape.field? given.name = some field ∧
    Takes levels field.decoder.reader given.text given.change

/-- A member with a new name changes the record, and the members behind it are read. -/
theorem reads_readMembers_member {rounds : ℕ} {names : List String} {record result : α}
    {given : Given α} {text behind rest : List Char} (fits : given.Fits levels shape)
    (isNew : given.name ∉ names) (ends : Ends behind)
    (comes : Reads levels (hasMember names.isEmpty) text true
      (spacing.member given.name given.text ++ behind))
    (readsBehind : Reads levels
      (shape.readMembers rounds (given.name :: names) (given.change record)) behind result rest) :
    Reads levels (shape.readMembers (rounds + 1) names record) text result rest := by
  obtain ⟨field, isField, takes⟩ := fits
  have noRepeat : names.contains given.name = false := by
    simpa using isNew
  refine comes.bind ?_
  rw [Spacing.member, List.append_assoc, List.cons_append, List.append_assoc]
  refine (reads_string given.name _).bind ?_
  simp only [isField, noRepeat, Bool.false_eq_true, if_false]
  exact (reads_colon _).bind
    ((takes.reads spacing.gap behind spacing.gapBlank ends).bind readsBehind)

/-- Where no required field is missing, the end of the object gives the record. -/
theorem reads_readMembers_end {rounds : ℕ} {names : List String} {record : α}
    {blanks : List Char} (areBlank : AreBlank blanks)
    (complete : ∀ field ∈ shape.fields, field.required = true → field.name ∈ names)
    (rest : List Char) :
    Reads levels (shape.readMembers (rounds + 1) names record) (blanks ++ '\x7d' :: rest) record
      ('\x7d' :: rest) := by
  have noneMissing : shape.fields.find?
      (fun field => field.required && !names.contains field.name) = none := by
    refine List.find?_eq_none.mpr fun field member missing => ?_
    simp only [Bool.and_eq_true, Bool.not_eq_true', List.contains_eq_mem, decide_eq_false_iff_not]
      at missing
    exact missing.2 (complete field member missing.1)
  refine (reads_hasMember_end areBlank _ rest).bind ?_
  simp only [Shape.complete, noneMissing]
  exact .pure record

/-- Members behind the first one change the record one after the other. -/
theorem reads_readMembers {rounds : ℕ} {names : List String} {record : α} {given : List (Given α)}
    (fits : ∀ member ∈ given, member.Fits levels shape) (notFirst : names ≠ [])
    (different : (given.map (·.name) ++ names).Nodup)
    (complete : ∀ field ∈ shape.fields, field.required = true →
      field.name ∈ given.map (·.name) ++ names)
    (enough : given.length < rounds) (rest : List Char) :
    Reads levels (shape.readMembers rounds names record)
      (spacing.behindFirst '\x7d' (given.map fun member => spacing.member member.name member.text) ++
        rest)
      (given.foldl (fun record member => member.change record) record) ('\x7d' :: rest) := by
  induction given generalizing rounds names record with
  | nil =>
      obtain ⟨rounds, rfl⟩ := Nat.exists_eq_add_one_of_ne_zero (Nat.pos_iff_ne_zero.mp enough)
      rw [List.map_nil, Spacing.behindFirst, List.append_assoc]
      exact reads_readMembers_end spacing.backBlank complete rest
  | cons member others ih =>
      obtain ⟨rounds, rfl⟩ :=
        Nat.exists_eq_add_one_of_ne_zero (Nat.pos_iff_ne_zero.mp (Nat.zero_lt_of_lt enough))
      obtain ⟨memberFits, othersFit⟩ := List.forall_mem_cons.mp fits
      have moved : ((member :: others).map (·.name) ++ names).Perm
          (others.map (·.name) ++ member.name :: names) :=
        List.perm_middle.symm
      have isNew : member.name ∉ names := by
        have := List.nodup_cons.mp different
        exact fun repeated => this.1 (List.mem_append_right _ repeated)
      have isFurther : names.isEmpty = false := List.isEmpty_eq_false_iff.mpr notFirst
      rw [List.map_cons, Spacing.behindFirst, List.cons_append, List.append_assoc,
        List.append_assoc]
      exact reads_readMembers_member spacing memberFits isNew
        (spacing.ends_behindFirst _ rest (by decide))
        (isFurther ▸ reads_hasMember_further spacing member.name member.text _)
        (ih othersFit (List.cons_ne_nil _ _) (moved.nodup_iff.mp different)
          (fun field isField required => moved.mem_iff.mp (complete field isField required))
          (Nat.lt_of_succ_lt_succ enough))

section Objects

variable {given : List (Given α)} (fits : ∀ member ∈ given, member.Fits levels shape)
  (different : (given.map (·.name)).Nodup)
  (complete : ∀ field ∈ shape.fields, field.required = true → field.name ∈ given.map (·.name))

include fits different complete

/-- The members of an object change the blank record one after the other. -/
theorem reads_readMembers_all {rounds : ℕ} (enough : given.length < rounds) (rest : List Char) :
    Reads levels (shape.readMembers rounds [] shape.blank)
      (spacing.behindOpening '\x7d' (given.map fun member => spacing.member member.name member.text) ++
        rest)
      (given.foldl (fun record member => member.change record) shape.blank) ('\x7d' :: rest) := by
  obtain ⟨rounds, rfl⟩ :=
    Nat.exists_eq_add_one_of_ne_zero (Nat.pos_iff_ne_zero.mp (Nat.zero_lt_of_lt enough))
  cases given with
  | nil => exact reads_readMembers_end areBlank_nil complete rest
  | cons member others =>
      obtain ⟨memberFits, othersFit⟩ := List.forall_mem_cons.mp fits
      have moved : ((member :: others).map (·.name)).Perm (others.map (·.name) ++ [member.name]) :=
        (List.perm_append_singleton _ _).symm
      rw [List.map_cons, Spacing.behindOpening, List.append_assoc, List.append_assoc]
      exact reads_readMembers_member spacing memberFits List.not_mem_nil
        (spacing.ends_behindFirst _ rest (by decide))
        (reads_hasMember_first spacing member.name member.text _)
        (reads_readMembers spacing othersFit (List.cons_ne_nil _ _) (moved.nodup_iff.mp different)
          (fun field isField required => moved.mem_iff.mp (complete field isField required))
          (Nat.lt_of_succ_lt_succ enough) rest)

/-- **An object is taken for the blank record, changed by each of its members.** -/
theorem takes_record :
    Takes (levels + 1) (record shape).reader
      ('\x7b' :: spacing.behindOpening '\x7d'
        (given.map fun member => spacing.member member.name member.text))
      (given.foldl (fun record member => member.change record) shape.blank) where
  begins := ⟨'\x7b', _, rfl, by decide, by decide⟩
  reads blanks rest areBlank _ := by
    refine (reads_valueStart areBlank (by decide) _).bind
      (.enclosed (.get fun _ _ => ?_) (reads_objectEnd rest))
    refine reads_readMembers_all spacing fits different complete ?_ rest
    have enough := spacing.length_le_behindOpening '\x7d'
      (given.map fun member => spacing.member member.name member.text)
    rw [List.length_map] at enough
    rw [List.append_eq, List.length_append]
    omega

end Objects

end Decoder.Shape

end SampleMethods.Json
