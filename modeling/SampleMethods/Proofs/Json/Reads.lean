import SampleMethods.Json.Reader

/-!
# What a reader reads

`Reads levels reader text value rest` says that the reader goes over a text until only
`rest` is left of it, and gives the value, wherever the text stands, as long as more than
`levels` brackets may still be opened. What readers read is put together as the readers
are: one after the other (`Reads.bind`), behind blanks (`reads_nextVisible`) and between
brackets (`Reads.enclosed`).

A value ends where a blank, a comma, a closing bracket or nothing at all comes next
(`Ends`). A reader takes a text for a value (`Takes`) if it reads the text behind any
blanks and in front of any such end.
-/

set_option autoImplicit false

namespace SampleMethods.Json.Reader

/-- The reader goes over the text up to the rest and gives the value. -/
def Reads {α : Type} (levels : Nat) (reader : Reader α) (text : List Char) (value : α)
    (rest : List Char) : Prop :=
  ∀ place depth, levels < depth →
    ∃ after, reader ⟨text, place, depth⟩ = .ok value ⟨rest, after, depth⟩

variable {α β : Type} {levels : Nat} {text rest behind : List Char}

/-! ## Readers one after the other -/

theorem Reads.pure (value : α) : Reads levels (pure value) text value text :=
  fun place _ _ => ⟨place, rfl⟩

theorem Reads.bind {reader : Reader α} {next : α → Reader β} {value : α} {result : β}
    (first : Reads levels reader text value rest)
    (second : Reads levels (next value) rest result behind) :
    Reads levels (reader >>= next) text result behind := by
  intro place depth enough
  obtain ⟨between, isFirst⟩ := first place depth enough
  obtain ⟨after, isSecond⟩ := second between depth enough
  refine ⟨after, ?_⟩
  change EStateM.bind reader next _ = _
  rw [EStateM.bind, isFirst]
  exact isSecond

/-- What a reader does may depend on where it is. -/
theorem Reads.get {next : Cursor → Reader α} {value : α}
    (reads : ∀ place depth, Reads levels (next ⟨text, place, depth⟩) text value rest) :
    Reads levels (get >>= next) text value rest := by
  intro place depth enough
  exact reads place depth place depth enough

theorem reads_peek (text : List Char) : Reads levels peek text text.head? text :=
  fun place _ _ => ⟨place, rfl⟩

theorem reads_skip (character : Char) (rest : List Char) :
    Reads levels skip (character :: rest) () rest :=
  fun _ _ _ => ⟨_, rfl⟩

theorem reads_next (character : Char) (rest : List Char) :
    Reads levels next (character :: rest) (some character) rest :=
  fun _ _ _ => ⟨_, rfl⟩

/-! ## Blanks -/

/-- Nothing but blanks. -/
def AreBlank (text : List Char) : Prop :=
  ∀ character ∈ text, isBlank character = true

theorem areBlank_nil : AreBlank [] :=
  List.forall_mem_nil _

/-- Blanks are gone over up to the first character that is none. -/
theorem behindBlanks_of_blank {blanks : List Char} (areBlank : AreBlank blanks)
    (stops : ∀ character ∈ rest.head?, isBlank character = false) (depth : Nat) (place : Place) :
    ∃ after, behindBlanks depth (blanks ++ rest) place = ⟨rest, after, depth⟩ := by
  induction blanks generalizing place with
  | nil =>
      cases rest with
      | nil => exact ⟨place, rfl⟩
      | cons character others =>
          have visible : isBlank character = false := stops character rfl
          exact ⟨place, by simp [behindBlanks, visible]⟩
  | cons character blanks ih =>
      obtain ⟨isBlank, areBlank⟩ := List.forall_mem_cons.mp areBlank
      obtain ⟨after, same⟩ := ih areBlank (place.behind character 1)
      exact ⟨after, by rw [List.cons_append, behindBlanks, if_pos isBlank, same]⟩

theorem reads_nextVisible {blanks : List Char} (areBlank : AreBlank blanks)
    (stops : ∀ character ∈ rest.head?, isBlank character = false) :
    Reads levels nextVisible (blanks ++ rest) rest.head? rest := by
  intro place depth _
  obtain ⟨after, gone⟩ := behindBlanks_of_blank areBlank stops depth place
  refine ⟨after, ?_⟩
  change EStateM.Result.ok (behindBlanks depth (blanks ++ rest) place).rest.head?
    (behindBlanks depth (blanks ++ rest) place) = _
  rw [gone]

/-- Behind blanks the first character of something else is seen. -/
theorem reads_nextVisible_cons {blanks : List Char} (areBlank : AreBlank blanks) {character : Char}
    (visible : isBlank character = false) (rest : List Char) :
    Reads levels nextVisible (blanks ++ character :: rest) (some character) (character :: rest) :=
  reads_nextVisible areBlank fun other isHead => by
    cases isHead
    exact visible

/-- Without blanks the next character is seen. -/
theorem reads_nextVisible_here {character : Char} (visible : isBlank character = false)
    (rest : List Char) :
    Reads levels nextVisible (character :: rest) (some character) (character :: rest) :=
  reads_nextVisible_cons areBlank_nil visible rest

/-! ## Brackets -/

section Brackets

variable {reader : Reader α} {value : α}

theorem Reads.recover (reads : Reads levels reader text value rest) :
    Reads levels (recover reader) text (.ok value) rest := by
  intro place depth enough
  obtain ⟨after, isRead⟩ := reads place depth enough
  exact ⟨after, by rw [Reader.recover, isRead]⟩

theorem Reads.placed (reads : Reads levels reader text value rest) :
    Reads levels (placed reader) text value rest :=
  reads.recover.bind (.pure value)

/-- Inside one more bracket, one level less is needed. -/
theorem Reads.deeper (reads : Reads levels reader text value rest) :
    Reads (levels + 1) (deeper reader) text value rest := by
  intro place depth enough
  obtain ⟨after, isRead⟩ := reads place (depth - 1) (by omega)
  refine ⟨after, ?_⟩
  have deep : ¬depth ≤ 1 := by omega
  rw [Reader.deeper]
  change (if depth ≤ 1 then _ else _ : Reader α) ⟨text, place, depth⟩ = _
  rw [if_neg deep]
  change EStateM.bind (Reader.recover reader) _ ⟨text, place, depth - 1⟩ = _
  rw [EStateM.bind, Reader.recover, isRead]
  rfl

/-- **What stands between brackets is read, and the brackets with it.** -/
theorem Reads.enclosed {close : Reader Unit} {opening : Char}
    (reads : Reads levels reader text value rest) (closes : Reads (levels + 1) close rest () behind) :
    Reads (levels + 1) (enclosed reader close) (opening :: text) value behind := by
  have inner : Reads levels (do skip; reader) (opening :: text) value rest :=
    (reads_skip opening text).bind reads
  exact inner.deeper.recover.bind (closes.recover.bind (.pure value))

end Brackets

/-! ## Where values end and begin -/

/-- A blank, a comma, a closing bracket or nothing at all comes next. -/
def Ends (rest : List Char) : Prop :=
  ∀ character ∈ rest.head?, isBlank character = true ∨ character ∈ [',', ']', '\x7d']

theorem ends_nil : Ends [] :=
  fun _ isHead => nomatch isHead

/-- What stands behind a value does not go on with a number. -/
theorem Ends.not_number {character : Char} {others : List Char} (ends : Ends (character :: others)) :
    isDigit character = false ∧ character ≠ '.' ∧ character ≠ 'e' ∧ character ≠ 'E' := by
  rcases ends character rfl with blank | close
  · simp only [isBlank, Bool.or_eq_true, beq_iff_eq] at blank
    rcases blank with ((rfl | rfl) | rfl) | rfl
    all_goals decide
  · simp only [List.mem_cons, List.not_mem_nil, or_false] at close
    rcases close with rfl | rfl | rfl
    all_goals decide

theorem Ends.not_digit (ends : Ends rest) : ∀ character ∈ rest.head?, isDigit character = false := by
  cases rest with
  | nil => exact fun _ isHead => nomatch isHead
  | cons first others =>
      intro character isHead
      cases isHead
      exact ends.not_number.1

/-- The text begins with something else than a blank or the end of a list. -/
def Begins (text : List Char) : Prop :=
  ∃ first others, text = first :: others ∧ isBlank first = false ∧ first ≠ ']'

/-- The reader reads the text as the value, behind blanks and in front of an end. -/
structure Takes {α : Type} (levels : Nat) (reader : Reader α) (text : List Char) (value : α) :
    Prop where
  begins : Begins text
  reads : ∀ blanks rest, AreBlank blanks → Ends rest →
    Reads levels reader (blanks ++ (text ++ rest)) value rest

/-- **A text that a reader takes for a value is a document of the value**, if no bracket in it
is too deep. -/
theorem Takes.run {reader : Reader α} {text : String} {value : α}
    (takes : Takes levels reader text.toList value) (shallow : levels < 128) :
    reader.run text = .ok value := by
  have nothing : ∀ character ∈ ([] : List Char).head?, isBlank character = false :=
    fun _ isHead => nomatch isHead
  have noMore : Reads levels documentEnd [] () [] :=
    (reads_nextVisible areBlank_nil nothing).bind (.pure ())
  have isRead := takes.reads [] [] areBlank_nil ends_nil
  rw [List.nil_append, List.append_nil] at isRead
  have document : Reads levels (do
      let result ← reader
      documentEnd
      return result) text.toList value [] :=
    isRead.bind (noMore.bind (.pure value))
  obtain ⟨after, same⟩ := document ⟨1, 0⟩ 128 shallow
  simp only [Reader.run, same]

end SampleMethods.Json.Reader
