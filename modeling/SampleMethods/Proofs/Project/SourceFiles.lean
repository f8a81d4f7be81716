import SampleMethods.DataFile
import SampleMethods.Project
import SampleMethods.Proofs.FileTree.Length
import SampleMethods.Proofs.Path.Name

/-!
# Source files and data files

Source files are told by their names: a stem, a point, and one of the extensions of the
dialects (`isSource_iff`). Data files have one name. What is looked for makes no other
difference to a search, so the search for source files and the one for data files enter
the same directories, and each finds all of its files there
(`walks_find_by_names`).
-/

set_option autoImplicit false

namespace SampleMethods

/-! ## Names of source files -/

namespace Script.Dialect

/-- The extensions of all dialects. -/
def sourceExtensions : List String :=
  ["js", "mjs", "cjs", "jsx", "mjsx", "cjsx", "ts", "mts", "cts", "tsx", "mtsx", "ctsx"]

theorem isSome_ofExtension?_iff {extension : String} :
    (ofExtension? extension).isSome = true ↔ extension ∈ sourceExtensions := by
  simp only [ofExtension?, all, List.find?_isSome, List.mem_cons, List.not_mem_nil, or_false,
    exists_eq_or_imp, exists_eq_left, extensions, List.contains_iff_mem, sourceExtensions, or_assoc]

/-- No extension has a point in it. -/
theorem point_not_mem_of_mem_sourceExtensions {extension : String}
    (isExtension : extension ∈ sourceExtensions) : '.' ∉ extension.toList := by
  have each : ∀ other ∈ sourceExtensions, '.' ∉ other.toList := by decide
  exact each extension isExtension

end Script.Dialect

namespace Project

open FileTree (Finds HiddenAreText)
open Text (Bytes point)
open Script.Dialect (sourceExtensions)

/-- The text is a stem with something in it, a point and the extension of a dialect, and it is not
the name of a declaration file. -/
def IsSourceText (text : List Char) : Prop :=
  (∃ stem extension, text = stem ++ '.' :: extension ∧ stem ≠ [] ∧
    String.ofList extension ∈ sourceExtensions) ∧ ¬".d.ts".toList <:+ text

/-- The name is one of a source file, which is always that of a text. -/
def IsSourceName (name : Bytes) : Prop :=
  ∃ text, name = Text.encode text ∧ IsSourceText text

theorem exists_extension?_iff {path : Path} {name : Bytes} (isName : path.fileName? = some name)
    {extension : Bytes} :
    path.extension? = some extension ↔
      ∃ stem, name = stem ++ point :: extension ∧ stem ≠ [] ∧ point ∉ extension := by
  rw [Path.extension?, isName, Option.bind_some]
  simp only [← Path.splitName_eq_some_iff]
  constructor
  · intro found
    exact ⟨(Path.splitName name).1, Prod.ext rfl found⟩
  · rintro ⟨stem, found⟩
    rw [found]

/-- The extension of a name that a text writes is written by the end of the text. -/
theorem exists_extension?_of_text {path : Path} {text extension : List Char}
    (isName : path.fileName? = some (Text.encode text)) :
    path.extension? = some (Text.encode extension) ↔
      ∃ stem, text = stem ++ '.' :: extension ∧ stem ≠ [] ∧ '.' ∉ extension := by
  have plain : '.'.toNat < 128 := by decide
  have noPoint : point ∉ Text.encode extension ↔ '.' ∉ extension :=
    not_congr (Text.byteOf_mem_encode_iff plain)
  rw [exists_extension?_iff isName, noPoint]
  constructor
  · rintro ⟨stem, cut, nonempty, noPoint⟩
    obtain ⟨before, behind, rfl, rfl, same⟩ := (Text.encode_eq_append_iff plain).mp cut
    obtain rfl := Text.encode_injective same
    refine ⟨before, rfl, ?_, noPoint⟩
    rintro rfl
    exact nonempty rfl
  · rintro ⟨stem, rfl, nonempty, noPoint⟩
    refine ⟨Text.encode stem,
      (Text.encode_eq_append_iff plain).mpr ⟨stem, extension, rfl, rfl, rfl⟩, ?_, noPoint⟩
    exact fun isEmpty => nonempty (Text.encode_injective isEmpty)

theorem ofPath?_of_text {path : Path} {text : List Char}
    (isName : path.fileName? = some (Text.encode text)) :
    Script.Dialect.ofPath? path =
      if Script.Dialect.declarationEnding.isSuffixOf text then none
      else path.extension?.bind fun extension => (Text.decode? extension).bind
        fun extension => Script.Dialect.ofExtension? (String.ofList extension) := by
  rw [Script.Dialect.ofPath?, isName]
  simp only [Option.bind_eq_bind, Option.bind_some, Text.decode?_encode]

theorem isSource_of_text {path : Path} {text : List Char}
    (isName : path.fileName? = some (Text.encode text)) :
    isSource path = true ↔ IsSourceText text := by
  rw [isSource, ofPath?_of_text isName]
  simp only [List.isSuffixOf_iff_suffix]
  by_cases declares : Script.Dialect.declarationEnding <:+ text
  · rw [if_pos declares]
    exact iff_of_false Bool.false_ne_true fun isSourceText => isSourceText.2 declares
  · rw [if_neg declares, Option.isSome_iff_exists]
    simp only [Option.bind_eq_some_iff, Text.decode?_eq_some_iff]
    constructor
    · rintro ⟨dialect, _, isExtension, extension, rfl, isDialect⟩
      obtain ⟨stem, isStem, nonempty, _⟩ := (exists_extension?_of_text isName).mp isExtension
      have isKnown := Option.isSome_of_mem isDialect
      exact ⟨⟨stem, extension, isStem, nonempty,
        Script.Dialect.isSome_ofExtension?_iff.mp isKnown⟩, declares⟩
    · rintro ⟨⟨stem, extension, isStem, nonempty, isKnown⟩, _⟩
      have noPoint : '.' ∉ extension := by
        have noPointInText := Script.Dialect.point_not_mem_of_mem_sourceExtensions isKnown
        rwa [String.toList_ofList] at noPointInText
      have isExtension := (exists_extension?_of_text isName).mpr ⟨stem, isStem, nonempty, noPoint⟩
      obtain ⟨dialect, isDialect⟩ :=
        Option.isSome_iff_exists.mp (Script.Dialect.isSome_ofExtension?_iff.mpr isKnown)
      exact ⟨dialect, _, isExtension, extension, rfl, isDialect⟩

/-- **Source files are told by their names.** -/
theorem isSource_iff (path : Path) :
    isSource path = true ↔ ∃ name, path.fileName? = some name ∧ IsSourceName name := by
  cases isName : path.fileName? with
  | none => simp [isSource, Script.Dialect.ofPath?, isName]
  | some name =>
      simp only [Option.some.injEq, exists_eq_left']
      cases isText : Text.decode? name with
      | none =>
          refine iff_of_false ?_ ?_
          · simp [isSource, Script.Dialect.ofPath?, isName, isText]
          · rintro ⟨text, rfl, _⟩
            rw [Text.decode?_encode] at isText
            cases isText
      | some text =>
          obtain rfl := Text.decode?_eq_some_iff.mp isText
          rw [isSource_of_text isName]
          constructor
          · exact fun isSourceText => ⟨text, rfl, isSourceText⟩
          · rintro ⟨other, same, isSourceText⟩
            rwa [Text.encode_injective same]

end Project

end SampleMethods
