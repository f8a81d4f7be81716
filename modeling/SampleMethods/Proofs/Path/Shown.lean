import Mathlib.Data.String.Basic
import SampleMethods.Proofs.Path.Below
import SampleMethods.Proofs.Path.Order
import SampleMethods.Proofs.Text.Bytes

/-!
# How paths are shown

A path need not be one that a text writes, and then it is shown with other characters in
place of what is none. That happens between two slashes by itself: names behind a path
are shown alike behind whatever path they are put (`toString_below`), and a name that a
text writes is still there at the end of what is shown (`fileName?_shown`). So the order
of what is shown behind one path is that behind another one (`toString_below_lt_iff`), and
so is the order of the paths themselves (`precedes_below_iff`).
-/

set_option autoImplicit false

namespace SampleMethods.Path

open Text (Bytes slash decodeLossy)

variable {path : Path} {name : Bytes} {names others : List Bytes}

/-! ## Stems -/

theorem decodeLossy_stem_append (path : Path) (behind : Bytes) :
    decodeLossy (path.stem ++ behind) = decodeLossy path.stem ++ decodeLossy behind := by
  rcases path.stem_cases with ⟨_, isStem⟩ | ⟨front, isStem, _⟩
  · rw [isStem]
    rfl
  · have here := Text.decodeLossy_append_slash front []
    rw [isStem, List.append_assoc, List.singleton_append, Text.decodeLossy_append_slash, here,
      List.append_assoc]
    rfl

/-- **Names are shown alike behind every path.** -/
theorem toString_below (path : Path) (nonempty : names ≠ [])
    (areNames : ∀ name ∈ names, FileTree.isName name = true) :
    (path.below names).toString =
      String.ofList (decodeLossy path.stem ++ decodeLossy (textOf names)) := by
  rw [toString, text_below path nonempty areNames, decodeLossy_stem_append]

/-- What a stem is shown as is the stem of a path. -/
theorem exists_stem_eq_shown (path : Path) :
    ∃ front : Path, front.stem = Text.encode (decodeLossy path.stem) := by
  rcases path.stem_cases with ⟨_, isStem⟩ | ⟨front, isStem, _⟩
  · rw [isStem]
    exact ⟨⟨[]⟩, rfl⟩
  · have shown : Text.encode (decodeLossy path.stem) =
        Text.encode (decodeLossy front) ++ [slash] := by
      rw [isStem, Text.decodeLossy_append_slash, Text.encode, List.flatMap_append]
      rfl
    rw [shown]
    exact ⟨⟨Text.encode (decodeLossy front) ++ [slash]⟩, by simp [stem]⟩

/-- **A name that a text writes is the last one of what is shown.** -/
theorem fileName?_shown (path : Path) (isName : FileTree.isName name = true)
    (isText : ∃ text, name = Text.encode text) :
    (Path.ofString (path.child name).toString).fileName? = some name := by
  obtain ⟨text, rfl⟩ := isText
  obtain ⟨front, isFront⟩ := path.exists_stem_eq_shown
  have same : Path.ofString (path.child (Text.encode text)).toString =
      front.below [Text.encode text] := by
    have shown : (Path.ofString (path.child (Text.encode text)).toString).text =
        (front.child (Text.encode text)).text := by
      rw [FileTree.child_text isName, isFront, toString, FileTree.child_text isName,
        decodeLossy_stem_append, Text.decodeLossy_encode, Path.ofString, Text.bytes,
        String.toList_ofList, Text.encode, List.flatMap_append]
      rfl
    exact congrArg Path.mk shown
  rw [same, fileName?_below front (by simp) (List.forall_mem_singleton.mpr isName)]
  rfl

/-- Names behind two paths, the last of which a text writes, are shown with one last name. -/
theorem fileName?_shown_below (first second : Path) (nonempty : names ≠ [])
    (areNames : ∀ name ∈ names, FileTree.isName name = true)
    (isText : ∃ text, names.getLast? = some (Text.encode text)) :
    (Path.ofString (first.below names).toString).fileName? =
      (Path.ofString (second.below names).toString).fileName? := by
  obtain ⟨front, last, rfl⟩ := List.eq_nil_or_concat' names |>.resolve_left nonempty
  obtain ⟨text, isText⟩ := isText
  rw [List.getLast?_concat, Option.some.injEq] at isText
  have lastIsName := areNames last (by simp)
  have shown : ∀ path : Path,
      (Path.ofString (path.below (front ++ [last])).toString).fileName? = some last := by
    intro path
    have isBelow : path.below (front ++ [last]) = (path.below front).child last := by
      rw [below, List.foldl_append]
      rfl
    rw [isBelow]
    exact fileName?_shown _ lastIsName ⟨text, isText⟩
  rw [shown, shown]

/-! ## Orders -/

/-- Names behind two paths are in the same order. -/
theorem precedes_below_iff (first second : Path)
    (areNames : ∀ name ∈ names, FileTree.isName name = true)
    (areOthers : ∀ name ∈ others, FileTree.isName name = true) :
    (first.below names).Precedes (first.below others) ↔
      (second.below names).Precedes (second.below others) := by
  have behind : ∀ path : Path, (path.below names).Precedes (path.below others) ↔
      names.map (fun name => (Component.name name).key) <
        others.map (fun name => (Component.name name).key) := by
    intro path
    have mono : StrictMono (path.key ++ · : List (ℕ ×ₗ Bytes) → List (ℕ ×ₗ Bytes)) :=
      fun _ _ below => List.append_left_lt below
    rw [precedes_iff, key, key, components_below path areNames, components_below path areOthers,
      List.map_append, List.map_append, List.map_map, List.map_map]
    exact mono.lt_iff_lt
  rw [behind, behind]

/-- Texts with the same front are in the order of what is behind it. -/
theorem ofList_append_lt_iff (front : List Char) {behind further : List Char} :
    String.ofList (front ++ behind) < String.ofList (front ++ further) ↔ behind < further := by
  have mono : StrictMono (front ++ · : List Char → List Char) :=
    fun _ _ below => List.append_left_lt below
  rw [String.lt_iff_toList_lt, String.toList_ofList, String.toList_ofList]
  exact mono.lt_iff_lt

/-- Names behind two paths are shown in the same order. -/
theorem toString_below_lt_iff (first second : Path) (nonempty : names ≠ [])
    (areNames : ∀ name ∈ names, FileTree.isName name = true) (othersNonempty : others ≠ [])
    (areOthers : ∀ name ∈ others, FileTree.isName name = true) :
    (first.below names).toString < (first.below others).toString ↔
      (second.below names).toString < (second.below others).toString := by
  rw [toString_below first nonempty areNames, toString_below first othersNonempty areOthers,
    toString_below second nonempty areNames, toString_below second othersNonempty areOthers,
    ofList_append_lt_iff, ofList_append_lt_iff]

/-- Names behind two paths are shown alike behind both, or behind none. -/
theorem toString_below_eq_iff (first second : Path) (nonempty : names ≠ [])
    (areNames : ∀ name ∈ names, FileTree.isName name = true) (othersNonempty : others ≠ [])
    (areOthers : ∀ name ∈ others, FileTree.isName name = true) :
    (first.below names).toString = (first.below others).toString ↔
      (second.below names).toString = (second.below others).toString := by
  rw [toString_below first nonempty areNames, toString_below first othersNonempty areOthers,
    toString_below second nonempty areNames, toString_below second othersNonempty areOthers,
    String.ofList_inj, String.ofList_inj, List.append_cancel_left_eq, List.append_cancel_left_eq]

end SampleMethods.Path
