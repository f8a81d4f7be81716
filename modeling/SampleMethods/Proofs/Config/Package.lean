import SampleMethods.Proofs.Config.Priority
import SampleMethods.Proofs.Glob.Nesting
import SampleMethods.Proofs.Json.Records

/-!
# Configurations in package files

A configuration says the same in a file of its own and in a package file
(`readFile_agrees_readPackage?`). A file of its own is decoded while it is read; the
configuration in a package file is decoded from the value of a member, when the whole file has
been read. Both refuse the same documents, as long as no object in them repeats a key: of two
members with one name, the value that is decoded has only the later one. A configuration that is
read need not come to settings, since its patterns may be nested too deeply to be put together
(`not_resolve_projectWithBraces`).
-/

set_option autoImplicit false

namespace SampleMethods.Config

open Json Json.Document Json.Reader

variable {levels : Nat}

/-! ## Decoding configurations -/

/-- What a field changes is what is put into the record. -/
theorem exists_put {α β : Type} {name : String} {required : Bool} {decoder : Decoder β}
    {put : β → α → α} {json : Json} {change : α → α}
    (isChange : (Decoder.field name required decoder put).decoder.ofJson json = .ok change) :
    ∃ value, put value = change := by
  obtain ⟨value, _, same⟩ := map_eq_ok_iff.mp isChange
  exact ⟨value, same⟩

/-- No two fields of a configuration are in each other's way. -/
theorem independent_shape : shape.Independent := by
  intro first isFirst second isSecond differ json other change otherChange isChange isOtherChange
    config
  simp only [shape, List.mem_cons, List.not_mem_nil, or_false] at isFirst isSecond
  rcases isFirst with rfl | rfl | rfl | rfl
  all_goals
    obtain ⟨value, rfl⟩ := exists_put isChange
    rcases isSecond with rfl | rfl | rfl | rfl
  all_goals
    obtain ⟨otherValue, rfl⟩ := exists_put isOtherChange
    first
      | exact absurd rfl differ
      | rfl

/-- **Configurations are read as what values hold.** -/
theorem agrees_decoder : decoder.Agrees 2 := by
  refine Decoder.Shape.agrees_record ?_ rfl independent_shape
  simp only [shape, List.forall_mem_cons]
  exact ⟨Decoder.agrees_string.list.map _, Decoder.agrees_string.list.map _,
    Decoder.agrees_choice.optional.map _, Decoder.agrees_bool.optional.map _,
    List.forall_mem_nil _⟩

/-! ## Whole documents -/

/-- Any value at all is read as deep as brackets may be opened. -/
theorem takes_value {value : Value} {json : Json} (readsAs : ReadsAs levels value json) :
    Takes levels Reader.value value.text json where
  begins := value.begins
  reads blanks rest areBlank ends place depth enough :=
    (readsAs depth enough).reads blanks rest areBlank ends place depth enough

theorem onlyTakes_value (value : Value) : OnlyTakes Reader.value value.text (Represents value) :=
  fun blanks rest areBlank ends => .get fun _ depth _ =>
    onlyTakes_valueUpTo value depth blanks rest areBlank ends

variable {document package : Document} {config : Config} {told : Option Config}

/-- What a document is parsed as is something that it stands for. -/
theorem represents_of_parse {json : Json} (parsed : Json.parse document.text = .ok json) :
    Represents document.value json :=
  (onlyTakes_value document.value).run document.front.areBlank document.back.areBlank parsed

/-- A document of a configuration holds a value that the configuration comes from. -/
theorem exists_readsAs_of_ofText (isConfig : ofText document.text = .ok config) :
    ∃ json, ReadsAs 2 document.value json ∧ decoder.ofJson json = .ok config :=
  (agrees_decoder.onlyTakes document.value).run document.front.areBlank document.back.areBlank
    (mapError_eq_ok_iff.mp isConfig)

/-- What comes from a value that a document stands for, its text tells. -/
theorem ofText_of_represents {json : Json} (represents : Represents document.value json)
    (distinct : DistinctKeys document.value) (isConfig : decoder.ofJson json = .ok config) :
    ofText document.text = .ok config :=
  mapError_eq_ok_iff.mpr ((agrees_decoder.takes represents distinct isConfig).run_document
    document.front.areBlank document.back.areBlank (by decide))

theorem ofValue_eq_ok_iff {json : Json} :
    decoder.ofValue json = .ok config ↔ decoder.ofJson json = .ok config := by
  rw [Decoder.ofValue]
  cases decoder.ofJson json with
  | ok result => simp only [Except.ok.injEq]
  | error cause => exact iff_of_false (fun same => nomatch same) fun same => nomatch same

/-- The document is an object whose only member has the name, and the value for its value. -/
def IsOnlyMember (package : Document) (name : String) (value : Value) : Prop :=
  ∃ member last, package.value = .object [member] last ∧ StandFor member.content.key name ∧
    member.content.value = value

/-- No blanks. -/
def noBlanks : Blanks :=
  ⟨[], areBlank_nil⟩

/-- The document as the value of the member for configurations in a package file. -/
def inPackage (document : Document) : Document where
  front := noBlanks
  value := .object [⟨noBlanks, ⟨plainPieces "wizard".toList (by decide), noBlanks, document.front,
    document.value⟩, document.back⟩] noBlanks
  back := noBlanks

/-- The text of a document can be put into a package file as it is. -/
theorem inPackage_text (document : Document) :
    (inPackage document).text = "\x7b\"wizard\":" ++ document.text ++ "\x7d" := by
  rw [← String.toList_inj]
  simp only [Document.text, inPackage, Value.text, List.map_cons, List.map_nil, behindOpening,
    behindPart, Document.Part.textWith, Binding.textWith, stringText_plainPieces, noBlanks,
    String.toList_ofList, String.toList_append, List.append_assoc, List.nil_append,
    List.append_nil, List.cons_append]
  rfl

theorem isOnlyMember_inPackage (document : Document) :
    IsOnlyMember (inPackage document) "wizard" document.value :=
  ⟨_, _, rfl, characters?_plainPieces _, rfl⟩

theorem member?_ofMembers (name : String) (value : Json) :
    (Json.ofMembers [(name, value)]).member? name = some value := by
  simp [Json.ofMembers, insertMember, Json.member?]

/-- The only member of an object is the one that is found in it. -/
theorem exists_member {name : String} {value : Value} {json : Json}
    (isOnly : IsOnlyMember package name value) (represents : Represents package.value json) :
    ∃ inner, json.member? name = some inner ∧ Represents value inner := by
  obtain ⟨member, last, isObject, standFor, rfl⟩ := isOnly
  rw [isObject] at represents
  cases represents with
  | object keys values =>
  rcases keys with _ | ⟨standForOther, _ | _⟩
  rcases values with _ | ⟨represents, _⟩
  rw [← standForOther.eq standFor]
  exact ⟨_, member?_ofMembers _ _, represents⟩

/-- **A package file tells what a file of its own tells.** -/
theorem ofText_eq_ok_iff_tells (isOnly : IsOnlyMember package "wizard" document.value)
    (distinct : DistinctKeys document.value) :
    ofText document.text = .ok config ↔ Tells package.text packageName (some config) := by
  constructor
  · intro isConfig
    obtain ⟨json, readsAs, isConfig⟩ := exists_readsAs_of_ofText isConfig
    obtain ⟨member, last, isObject, standFor, isSame⟩ := isOnly
    have packageReads : ReadsAs 3 package.value (.ofMembers [("wizard", json)]) := by
      rw [isObject]
      exact readsAs_object (.cons ⟨standFor, isSame ▸ readsAs⟩ .nil)
    have isPackage : Json.parse package.text = .ok (.ofMembers [("wizard", json)]) :=
      (takes_value packageReads).run_document package.front.areBlank package.back.areBlank
        (by decide)
    exact .inPackage isPackage (member?_ofMembers _ _) (ofValue_eq_ok_iff.mpr isConfig)
  · intro tells
    cases tells with
    | alone notPackage => exact absurd rfl notPackage
    | inPackage isPackage isMember isConfig =>
        obtain ⟨inner, isInner, represents⟩ := exists_member isOnly (represents_of_parse isPackage)
        cases isMember.symm.trans isInner
        exact ofText_of_represents represents distinct (ofValue_eq_ok_iff.mp isConfig)

theorem not_tells_none (isOnly : IsOnlyMember package "wizard" document.value) :
    ¬Tells package.text packageName none := by
  intro tells
  cases tells with
  | nothing isPackage noMember =>
      obtain ⟨inner, isInner, _⟩ := exists_member isOnly (represents_of_parse isPackage)
      cases noMember.symm.trans isInner

/-- **A configuration is the same in a file of its own and in a package file.** Either both files
are refused, or both give one configuration, whose patterns can be read. It comes down to settings
just if its patterns can also be put together, and else fails because they cannot. -/
theorem readFile_agrees_readPackage? [Glob.Compiler] (tree packageTree : FileTree)
    (file packageFile : Path) (isText : tree.readText file = .ok document.text)
    (isPackageText : packageTree.readText packageFile = .ok package.text)
    (isOnly : IsOnlyMember package "wizard" document.value)
    (distinct : DistinctKeys document.value) :
    (∃ failure, readFile tree file = .error failure) ∧
        (∃ failure, readPackage? packageTree packageFile = .error failure) ∨
      ∃ config, readFile tree file = .ok config ∧
        readPackage? packageTree packageFile = .ok (some config) ∧
        config.HasPatterns ∧
        ((∃ settings, config.resolve = .ok settings) ↔ config.Compiles) ∧
        ∀ failure, config.resolve = .error failure →
          ∃ reason, failure = .of (.globSet reason) := by
  have agree (config : Config) : readFile tree file = .ok config ↔
      readPackage? packageTree packageFile = .ok (some config) := by
    rw [readFile_eq_ok_iff, readPackage?_eq_ok_iff, isText, isPackageText]
    simp only [Except.ok.injEq, exists_eq_left', ofText_eq_ok_iff_tells isOnly distinct,
      Option.mem_some_iff, forall_eq']
  cases isRead : readFile tree file with
  | ok config =>
      obtain ⟨_, _, _, hasPatterns⟩ := readFile_eq_ok_iff.mp isRead
      exact .inr ⟨config, rfl, (agree config).mp isRead, hasPatterns,
        exists_resolve_iff.trans (and_iff_right hasPatterns),
        fun _ fails => globSet_of_resolve hasPatterns fails⟩
  | error failure =>
      refine .inl ⟨⟨failure, rfl⟩, ?_⟩
      cases isReadPackage : readPackage? packageTree packageFile with
      | error packageFailure => exact ⟨packageFailure, rfl⟩
      | ok told =>
          cases told with
          | none =>
              obtain ⟨text, isSame, tells, _⟩ := readPackage?_eq_ok_iff.mp isReadPackage
              cases isPackageText.symm.trans isSame
              exact absurd tells (not_tells_none isOnly)
          | some config => cases isRead.symm.trans ((agree config).mpr isReadPackage)

/-- A configuration that is written as the list of its fields. -/
def listedConfig : Document where
  front := noBlanks
  value := .array [⟨noBlanks, .array [⟨noBlanks, .string (plainPieces ['a'] (by decide)), noBlanks⟩]
    noBlanks, noBlanks⟩] noBlanks
  back := noBlanks

theorem listedConfig_text : listedConfig.text = "[[\"a\"]]" := by
  rw [← String.toList_inj]
  simp [listedConfig, Document.text, Value.text, behindOpening, behindPart, Document.Part.textWith,
    stringText_plainPieces, noBlanks]

/-- A project that has the configuration in both files. -/
def projectWithBoth : FileTree where
  root := .directory [(Text.bytes ".wizardrc.json", .file (some "[[\"a\"]]")),
    (Text.bytes "package.json", .file (some "\x7b\"wizard\":[[\"a\"]]\x7d"))]
  workingDirectory := []

/-- The list of the fields is read in both files. -/
theorem readFile_agrees_projectWithBoth :
    ∃ config, readFile projectWithBoth (.ofString "/.wizardrc.json") = .ok config ∧
      readPackage? projectWithBoth (.ofString "/package.json") = .ok (some config) ∧
      config.HasPatterns ∧
      ((∃ settings, config.resolve = .ok settings) ↔ config.Compiles) ∧
      ∀ failure, config.resolve = .error failure → ∃ reason, failure = .of (.globSet reason) := by
  have isText : projectWithBoth.readText (.ofString "/.wizardrc.json") = .ok listedConfig.text := by
    rw [listedConfig_text]
    rfl
  have isPackageText : projectWithBoth.readText (.ofString "/package.json") =
      .ok (inPackage listedConfig).text := by
    rw [inPackage_text, listedConfig_text]
    rfl
  have distinct : DistinctKeys listedConfig.value :=
    .array (List.forall_mem_singleton.mpr (.array (List.forall_mem_singleton.mpr (.string _))))
  rcases readFile_agrees_readPackage? _ _ _ _ isText isPackageText
    (isOnlyMember_inPackage listedConfig) distinct with ⟨⟨failure, fails⟩, _⟩ | agree
  · obtain ⟨config, isRead, _⟩ : ∃ config,
        readFile projectWithBoth (.ofString "/.wizardrc.json") = .ok config ∧
          config = ⟨["a"], [], none, none⟩ := exists_ok (by decide +kernel)
    cases fails.symm.trans isRead
  · exact agree

/-! ## Patterns that cannot be put together -/

theorem arePlain_bracedText (braces : Nat) : ArePlain (Glob.bracedText braces) := by
  induction braces with
  | zero => decide
  | succ braces ih =>
      rw [Glob.bracedText]
      simp only [ArePlain, List.forall_mem_cons, List.forall_mem_append, List.not_mem_nil,
        IsEmpty.forall_iff, implies_true, and_true]
      exact ⟨by decide, ih, by decide⟩

/-- A configuration that leaves out what matches a letter in a number of braces. -/
def bracedConfig (braces : Nat) : Config :=
  { empty with excluded := [.ofList (Glob.bracedText braces)] }

/-- The configuration as it is written. -/
def bracedDocument (braces : Nat) : Document where
  front := noBlanks
  value := .object [⟨noBlanks, ⟨plainPieces "exclude".toList (by decide), noBlanks, noBlanks,
    .array [⟨noBlanks, .string (plainPieces _ (arePlain_bracedText braces)), noBlanks⟩] noBlanks⟩,
    noBlanks⟩] noBlanks
  back := noBlanks

/-- A project that has the configuration in both files. -/
def projectWithBraces (braces : Nat) : FileTree where
  root := .directory [(Text.bytes ".wizardrc.json", .file (some (bracedDocument braces).text)),
    (Text.bytes "package.json", .file (some (inPackage (bracedDocument braces)).text))]
  workingDirectory := []

theorem distinctKeys_bracedDocument (braces : Nat) : DistinctKeys (bracedDocument braces).value :=
  .object (List.pairwise_singleton _ _) (List.forall_mem_singleton.mpr
    (.array (List.forall_mem_singleton.mpr (.string _))))

theorem ofText_bracedDocument (braces : Nat) :
    ofText (bracedDocument braces).text = .ok (bracedConfig braces) := by
  have standFor : StandFor (plainPieces _ (arePlain_bracedText braces))
      (.ofList (Glob.bracedText braces)) := by
    rw [StandFor, characters?_plainPieces, String.toList_ofList]
  have represents : Represents (bracedDocument braces).value
      (.ofMembers [("exclude", .array [.string (.ofList (Glob.bracedText braces))])]) :=
    .object (.cons (characters?_plainPieces _) .nil)
      (.cons (.array (.cons (.string standFor) .nil)) .nil)
  exact ofText_of_represents represents (distinctKeys_bracedDocument braces) rfl

theorem hasPatterns_bracedConfig (braces : Nat) : (bracedConfig braces).HasPatterns :=
  List.forall_mem_singleton.mpr ⟨_, Glob.parse_bracedText braces⟩

/-- Braces that are nested too deeply are found out only where patterns are put together. -/
theorem resolve_bracedConfig {braces : Nat} (deep : Glob.nestingLimit ≤ braces) :
    (bracedConfig braces).resolve = .error (.of (.globSet "error parsing pattern 0")) := by
  have isRead : patterns "exclude" (bracedConfig braces).excluded =
      .ok [⟨.ofList (Glob.bracedText braces), [Glob.braced braces]⟩] :=
    patterns_eq_ok_iff.mpr (.cons (Glob.parse_bracedText braces) .nil)
  rw [resolve, isRead, patterns_defaultExclude]
  change (do
    let excluded ← Glob.compile [⟨.ofList (Glob.bracedText braces), [Glob.braced braces]⟩]
    pure _) = _
  rw [Glob.compile, Glob.refusal?_braced deep]
  rfl

/-- Both files are read, and what they hold comes to no settings. -/
theorem not_resolve_projectWithBraces :
    DistinctKeys (bracedDocument 300).value ∧
      IsOnlyMember (inPackage (bracedDocument 300)) "wizard" (bracedDocument 300).value ∧
      readFile (projectWithBraces 300) (.ofString "/.wizardrc.json") = .ok (bracedConfig 300) ∧
      readPackage? (projectWithBraces 300) (.ofString "/package.json") =
        .ok (some (bracedConfig 300)) ∧
      ¬∃ settings, (bracedConfig 300).resolve = .ok settings := by
  have hasPatterns := hasPatterns_bracedConfig 300
  have isConfig := ofText_bracedDocument 300
  have isOnly := isOnlyMember_inPackage (bracedDocument 300)
  have distinct := distinctKeys_bracedDocument 300
  refine ⟨distinct, isOnly, readFile_eq_ok_iff.mpr ⟨_, rfl, isConfig, hasPatterns⟩,
    readPackage?_eq_ok_iff.mpr ⟨_, rfl, (ofText_eq_ok_iff_tells isOnly distinct).mp isConfig,
      fun config isSame => Option.some.inj isSame ▸ hasPatterns⟩, ?_⟩
  rintro ⟨settings, resolved⟩
  rw [resolve_bracedConfig (by decide)] at resolved
  cases resolved

end SampleMethods.Config
