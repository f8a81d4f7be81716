import SampleMethods.Proofs.Json.Document

/-!
# What a reader can give

`OnlyGives reader text property` says that the reader gives nothing but results with the property
when it succeeds on the text, and leaves the depth of brackets as it was. It may as well fail. A
reader that fails for certain gives only results with every property. The counterpart is `Reads`,
which says that a reader succeeds.
-/

set_option autoImplicit false

namespace SampleMethods.Json.Reader

/-- If the reader succeeds on the text, its result and what is left of the text have the
property. -/
def OnlyGives {α : Type} (reader : Reader α) (text : List Char)
    (property : α → List Char → Prop) : Prop :=
  ∀ place depth value after, 0 < depth → reader ⟨text, place, depth⟩ = .ok value after →
    property value after.rest ∧ after.depth = depth

/-- The rest is left, and the result has the property. -/
def UpTo {α : Type} (rest : List Char) (property : α → Prop) (value : α) (left : List Char) :
    Prop :=
  left = rest ∧ property value

/-- On the text the reader does what the next one does on the rest. -/
def GoesOn {α : Type} (levels : Nat) (reader : Reader α) (text : List Char) (next : Reader α)
    (rest : List Char) : Prop :=
  ∀ place depth, levels < depth →
    ∃ between, reader ⟨text, place, depth⟩ = next ⟨rest, between, depth⟩

variable {α β : Type} {levels : Nat} {text rest : List Char} {property : α → List Char → Prop}
  {other : β → List Char → Prop}

/-! ## Success -/

/-- When two readers succeed, one after the other, each of them does. -/
theorem ok_of_bind {reader : Reader β} {next : β → Reader α} {cursor after : Cursor} {value : α}
    (succeeds : (reader >>= next) cursor = .ok value after) :
    ∃ middle between, reader cursor = .ok middle between ∧
      next middle between = .ok value after := by
  change EStateM.bind reader next _ = _ at succeeds
  rw [EStateM.bind] at succeeds
  cases isFirst : reader cursor with
  | error error between =>
      rw [isFirst] at succeeds
      cases succeeds
  | ok middle between =>
      rw [isFirst] at succeeds
      exact ⟨middle, between, rfl, succeeds⟩

theorem ok_of_recover {reader : Reader α} {cursor after : Cursor} {value : α}
    (recovered : recover reader cursor = .ok (.ok value) after) :
    reader cursor = .ok value after := by
  rw [recover] at recovered
  cases isRead : reader cursor with
  | error error behind =>
      rw [isRead] at recovered
      cases recovered
  | ok found behind =>
      rw [isRead] at recovered
      cases recovered
      rfl

/-! ## Going on -/

theorem Reads.goesOn {reader : Reader β} {next : β → Reader α} {value : β}
    (reads : Reads levels reader text value rest) :
    GoesOn levels (reader >>= next) text (next value) rest := by
  intro place depth enough
  obtain ⟨between, isRead⟩ := reads place depth enough
  refine ⟨between, ?_⟩
  change EStateM.bind reader next _ = _
  rw [EStateM.bind, isRead]

theorem GoesOn.trans {reader next last : Reader α} {behind : List Char}
    (first : GoesOn levels reader text next rest) (second : GoesOn levels next rest last behind) :
    GoesOn levels reader text last behind := by
  intro place depth enough
  obtain ⟨between, isFirst⟩ := first place depth enough
  obtain ⟨after, isSecond⟩ := second between depth enough
  exact ⟨after, isFirst.trans isSecond⟩

theorem GoesOn.refl (reader : Reader α) (text : List Char) :
    GoesOn levels reader text reader text :=
  fun place _ _ => ⟨place, rfl⟩

theorem GoesOn.reads {reader next : Reader α} {value : α} {behind : List Char}
    (goesOn : GoesOn levels reader text next rest) (reads : Reads levels next rest value behind) :
    Reads levels reader text value behind := by
  intro place depth enough
  obtain ⟨between, isSame⟩ := goesOn place depth enough
  obtain ⟨after, isRead⟩ := reads between depth enough
  exact ⟨after, isSame.trans isRead⟩

theorem GoesOn.onlyGives {reader next : Reader α} (goesOn : GoesOn 0 reader text next rest)
    (gives : OnlyGives next rest property) : OnlyGives reader text property := by
  intro place depth value after enough succeeds
  obtain ⟨between, isSame⟩ := goesOn place depth enough
  exact gives between depth value after enough (isSame ▸ succeeds)

/-- The reader does in front of blanks what it does behind them. -/
def SkipsBlanks (reader : Reader α) : Prop :=
  ∀ ⦃levels : Nat⦄ ⦃blanks others : List Char⦄ ⦃first : Char⦄, AreBlank blanks →
    isBlank first = false →
    GoesOn levels reader (blanks ++ first :: others) reader (first :: others)

theorem skipsBlanks_nextVisible (next : Option Char → Reader α) :
    SkipsBlanks (nextVisible >>= next) := by
  intro levels blanks others first areBlank visible place depth enough
  have goesOn : GoesOn levels (nextVisible >>= next) _ (next (some first)) _ :=
    (reads_nextVisible_cons areBlank visible others).goesOn
  obtain ⟨between, same⟩ := goesOn place depth enough
  refine ⟨between, same.trans ?_⟩
  change _ = next (behindBlanks depth (first :: others) between).rest.head?
    (behindBlanks depth (first :: others) between)
  simp only [behindBlanks, visible, Bool.false_eq_true, if_false, List.head?_cons]

theorem SkipsBlanks.bind {reader : Reader β} (skips : SkipsBlanks reader) (next : β → Reader α) :
    SkipsBlanks (reader >>= next) := by
  intro levels blanks others first areBlank visible place depth enough
  obtain ⟨between, same⟩ := skips areBlank visible place depth enough
  refine ⟨between, ?_⟩
  change EStateM.bind reader next _ = EStateM.bind reader next _
  rw [EStateM.bind, EStateM.bind, same]

/-! ## Readers one after the other -/

theorem OnlyGives.pure {value : α} (holds : property value text) :
    OnlyGives (pure value) text property := by
  intro place depth result after _ succeeds
  cases succeeds
  exact ⟨holds, rfl⟩

theorem OnlyGives.bind {reader : Reader β} {next : β → Reader α}
    (first : OnlyGives reader text other)
    (second : ∀ value rest, other value rest → OnlyGives (next value) rest property) :
    OnlyGives (reader >>= next) text property := by
  intro place depth value after enough succeeds
  obtain ⟨middle, ⟨rest, behind, _⟩, isFirst, further⟩ := ok_of_bind succeeds
  obtain ⟨holds, same⟩ := first place depth middle _ enough isFirst
  cases same
  exact second middle rest holds behind _ value after enough further

/-- Behind a reader that goes over a known text. -/
theorem OnlyGives.after {reader : Reader β} {next : β → Reader α} {known : β → Prop}
    (first : OnlyGives reader text (UpTo rest known))
    (second : ∀ value, known value → OnlyGives (next value) rest property) :
    OnlyGives (reader >>= next) text property :=
  first.bind fun value _ ⟨isRest, isKnown⟩ => isRest ▸ second value isKnown

theorem OnlyGives.mono {reader : Reader α} {property weaker : α → List Char → Prop}
    (gives : OnlyGives reader text property)
    (implies : ∀ value rest, property value rest → weaker value rest) :
    OnlyGives reader text weaker := by
  intro place depth value after enough succeeds
  obtain ⟨holds, same⟩ := gives place depth value after enough succeeds
  exact ⟨implies value after.rest holds, same⟩

theorem OnlyGives.upTo {reader : Reader α} {known weaker : α → Prop}
    (gives : OnlyGives reader text (UpTo rest known))
    (implies : ∀ value, known value → weaker value) :
    OnlyGives reader text (UpTo rest weaker) :=
  gives.mono fun value _ ⟨isRest, isKnown⟩ => ⟨isRest, implies value isKnown⟩

theorem Reads.onlyGives {reader : Reader α} {value : α}
    (reads : Reads 0 reader text value rest) (holds : property value rest) :
    OnlyGives reader text property := by
  intro place depth result after enough succeeds
  obtain ⟨behind, isRead⟩ := reads place depth enough
  cases isRead.symm.trans succeeds
  exact ⟨holds, rfl⟩

/-- What a reader does may depend on where it is. -/
theorem OnlyGives.get {next : Cursor → Reader α}
    (gives : ∀ place depth, 0 < depth → OnlyGives (next ⟨text, place, depth⟩) text property) :
    OnlyGives (get >>= next) text property := by
  intro place depth value after enough succeeds
  exact gives place depth enough place depth value after enough succeeds

/-! ## Failures -/

theorem onlyGives_throw (error : Error) : OnlyGives (throw error) text property :=
  fun _ _ _ _ _ succeeds => nomatch succeeds

theorem onlyGives_fail (cause : Cause) : OnlyGives (fail cause) text property :=
  fun _ _ _ _ _ succeeds => nomatch succeeds

theorem onlyGives_failUnplaced (cause : Cause) : OnlyGives (failUnplaced cause) text property :=
  onlyGives_throw ⟨cause, none⟩

theorem onlyGives_failAtNext (cause : Cause) : OnlyGives (failAtNext cause) text property := by
  refine .get fun _ _ _ => ?_
  cases text with
  | nil => exact onlyGives_throw _
  | cons character others => exact onlyGives_throw _

/-- The reader never succeeds. -/
def Never (reader : Reader α) : Prop :=
  ∀ cursor value after, reader cursor ≠ .ok value after

theorem Never.onlyGives {reader : Reader α} (never : Never reader) :
    OnlyGives reader text property :=
  fun _ _ _ _ _ succeeds => absurd succeeds (never _ _ _)

theorem never_failUnplaced (cause : Cause) : Never (α := α) (failUnplaced cause) :=
  fun _ _ _ succeeds => nomatch succeeds

theorem never_failAtNext (cause : Cause) : Never (α := α) (failAtNext cause) := by
  rintro ⟨text, place, depth⟩ value after succeeds
  cases text with
  | nil => cases succeeds
  | cons character others => cases succeeds

theorem Never.stop {reader : Reader β} {next : β → Reader α} (never : Never reader) :
    Never (reader >>= next) := by
  intro cursor value after succeeds
  obtain ⟨middle, between, isFirst, _⟩ := ok_of_bind succeeds
  exact never _ _ _ isFirst

theorem Never.behind {reader : Reader β} {next : β → Reader α}
    (never : ∀ value, Never (next value)) :
    Never (reader >>= next) := by
  intro cursor value after succeeds
  obtain ⟨middle, between, _, isSecond⟩ := ok_of_bind succeeds
  exact never _ _ _ _ isSecond

theorem Never.placed {reader : Reader α} (never : Never reader) : Never (placed reader) := by
  intro cursor value after succeeds
  obtain ⟨result, between, recovered, settled⟩ := ok_of_bind succeeds
  cases result with
  | error error => cases settled
  | ok found => exact never _ _ _ (ok_of_recover recovered)

/-- Behind a reader that cannot succeed nothing is read. -/
theorem OnlyGives.stop {reader : Reader β} {next : β → Reader α}
    (never : OnlyGives reader text fun _ _ => False) : OnlyGives (reader >>= next) text property :=
  never.bind fun _ _ impossible => impossible.elim

/-! ## Brackets -/

theorem OnlyGives.placed {reader : Reader α} (gives : OnlyGives reader text property) :
    OnlyGives (placed reader) text property := by
  intro place depth value after enough succeeds
  obtain ⟨result, between, recovered, settled⟩ := ok_of_bind succeeds
  cases result with
  | error error => cases settled
  | ok found =>
      cases settled
      exact gives place depth value after enough (ok_of_recover recovered)

theorem OnlyGives.deeper {reader : Reader α} (gives : OnlyGives reader text property) :
    OnlyGives (deeper reader) text property := by
  intro place depth value after enough succeeds
  rw [Reader.deeper] at succeeds
  change (if depth ≤ 1 then _ else _ : Reader α) ⟨text, place, depth⟩ = _ at succeeds
  split_ifs at succeeds with shallow
  · exact absurd succeeds fun succeeds => by
      cases text with
      | nil => cases succeeds
      | cons character others => cases succeeds
  · change (Reader.recover reader >>= _) ⟨text, place, depth - 1⟩ = _ at succeeds
    obtain ⟨result, between, recovered, settled⟩ := ok_of_bind succeeds
    cases result with
    | error error => cases settled
    | ok found =>
        cases settled
        exact ⟨(gives _ _ _ _ (by omega) (ok_of_recover recovered)).1, rfl⟩

/-- **What brackets enclose is all that can come out of them**, and only if they are closed. -/
theorem OnlyGives.enclosed {reader : Reader α} {close : Reader Unit} {opening : Char}
    {inside : α → List Char → Prop} (gives : OnlyGives reader text inside)
    (closes : ∀ value left, inside value left →
      OnlyGives close left fun _ rest => property value rest) :
    OnlyGives (enclosed reader close) (opening :: text) property := by
  intro place depth value after enough succeeds
  have skipped : OnlyGives (do skip; reader) (opening :: text) inside :=
    (reads_skip opening text).goesOn.onlyGives gives
  obtain ⟨result, ⟨left, behind, _⟩, recovered, succeeds⟩ := ok_of_bind succeeds
  obtain ⟨closed, last, recoveredClose, settled⟩ := ok_of_bind succeeds
  cases result with
  | error error => cases settled
  | ok found =>
      cases closed with
      | error error => cases settled
      | ok done =>
          cases settled
          obtain ⟨isInside, same⟩ :=
            skipped.deeper place depth value _ enough (ok_of_recover recovered)
          cases same
          exact closes value left isInside behind _ done after enough
            (ok_of_recover recoveredClose)

/-- Whatever the reader takes the text for, behind blanks and in front of an end, has the
property. -/
def OnlyTakes {α : Type} (reader : Reader α) (text : List Char) (property : α → Prop) : Prop :=
  ∀ blanks rest, AreBlank blanks → Ends rest →
    OnlyGives reader (blanks ++ (text ++ rest)) (UpTo rest property)

/-- A reader that skips blanks takes a text for what it reads it as. -/
theorem SkipsBlanks.takes {reader : Reader α} (skips : SkipsBlanks reader) (begins : Begins text)
    {value : α} (reads : ∀ rest, Ends rest → Reads levels reader (text ++ rest) value rest) :
    Takes levels reader text value where
  begins := begins
  reads blanks rest areBlank ends := by
    have given := reads rest ends
    obtain ⟨first, others, rfl, visible, _⟩ := begins
    exact (skips areBlank visible).reads given

theorem SkipsBlanks.onlyTakes {reader : Reader α} (skips : SkipsBlanks reader)
    (begins : Begins text) {property : α → Prop}
    (gives : ∀ rest, Ends rest → OnlyGives reader (text ++ rest) (UpTo rest property)) :
    OnlyTakes reader text property := by
  intro blanks rest areBlank ends
  have given := gives rest ends
  obtain ⟨first, others, rfl, visible, _⟩ := begins
  exact (skips areBlank visible).onlyGives given

/-- What a reader takes a text for is one of the things that it can take it for. -/
theorem Takes.holds {reader : Reader α} {value : α} {property : α → Prop}
    (takes : Takes levels reader text value) (onlyTakes : OnlyTakes reader text property) :
    property value := by
  obtain ⟨after, isRead⟩ := takes.reads [] [] areBlank_nil ends_nil ⟨1, 0⟩ (levels + 1)
    (Nat.lt_succ_self levels)
  exact (onlyTakes [] [] areBlank_nil ends_nil ⟨1, 0⟩ (levels + 1) value _ (Nat.succ_pos levels)
    isRead).1.2

section Documents

variable {reader : Reader α} {front back : List Char} (frontBlank : AreBlank front)
  (backBlank : AreBlank back)

include backBlank

theorem ends_of_areBlank : Ends back :=
  fun character isHead => .inl (backBlank character (List.mem_of_mem_head? isHead))

theorem reads_documentEnd : Reads levels documentEnd back () [] := by
  have nothing : ∀ character ∈ ([] : List Char).head?, isBlank character = false :=
    fun _ isHead => nomatch isHead
  have visible : Reads levels nextVisible (back ++ []) _ [] := reads_nextVisible backBlank nothing
  rw [List.append_nil] at visible
  exact visible.bind (.pure ())

include frontBlank

/-- What a reader takes a text for, it finds in a document of the text. -/
theorem Takes.run_document {value : α} (takes : Takes levels reader text value)
    (shallow : levels < 128) :
    reader.run (String.ofList (front ++ (text ++ back))) = .ok value := by
  have document : Reads levels (do
      let result ← reader
      documentEnd
      return result) (front ++ (text ++ back)) value [] :=
    (takes.reads front back frontBlank (ends_of_areBlank backBlank)).bind
      ((reads_documentEnd backBlank).bind (.pure value))
  obtain ⟨after, same⟩ := document ⟨1, 0⟩ 128 shallow
  simp only [Reader.run, String.toList_ofList, same]

/-- **What comes out of a document is something that its reader can take its text for.** -/
theorem OnlyTakes.run {property : α → Prop} (takes : OnlyTakes reader text property) {value : α}
    (succeeds : reader.run (String.ofList (front ++ (text ++ back))) = .ok value) :
    property value := by
  have document : OnlyGives (do
      let result ← reader
      documentEnd
      return result) (front ++ (text ++ back)) fun value _ => property value :=
    (takes front back frontBlank (ends_of_areBlank backBlank)).after fun value holds =>
      (reads_documentEnd backBlank).goesOn.onlyGives (.pure holds)
  rw [Reader.run, String.toList_ofList] at succeeds
  split at succeeds
  · rename_i result after isRead
    cases succeeds
    exact (document ⟨1, 0⟩ 128 value after (by decide) isRead).1
  · cases succeeds

end Documents

end SampleMethods.Json.Reader
