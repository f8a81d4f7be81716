import SampleMethods.Text.Line

/-!
# Lines behind a line feed

What follows a line feed is cut into lines on its own. So the last line of a text
is that of what follows any line feed in it, if something does.
-/

set_option autoImplicit false

namespace SampleMethods.Text

/-- A character that ends no line belongs to the first line. -/
theorem splitLines_cons {character : Char} (notFeed : character ≠ '\n')
    (notReturn : character ≠ '\r') (text : List Char) :
    splitLines (character :: text) =
      (character :: (splitLines text).headD []) :: (splitLines text).tail := by
  cases text with
  | nil => rw [splitLines.eq_4 character notFeed, splitLines]; rfl
  | cons first rest =>
      rw [splitLines.eq_5 character _ notFeed (fun _ same => absurd same notReturn)
        (List.cons_ne_nil first rest)]
      cases splitLines (first :: rest) <;> rfl

/-- The lines in front of a line feed and those behind it are cut apart. -/
theorem splitLines_append_lineFeed (before after : List Char) :
    ∃ line lines, splitLines (before ++ '\n' :: after) = line :: lines ++ splitLines after := by
  induction before using splitLines.induct with
  | case1 => exact ⟨[], [], rfl⟩
  | case2 rest ih =>
      obtain ⟨line, lines, cut⟩ := ih
      refine ⟨[], line :: lines, ?_⟩
      rw [List.cons_append, splitLines, cut]
      rfl
  | case3 rest ih =>
      obtain ⟨line, lines, cut⟩ := ih
      refine ⟨[], line :: lines, ?_⟩
      rw [List.cons_append, List.cons_append, splitLines, cut]
      rfl
  | case4 character notFeed =>
      rw [List.singleton_append]
      by_cases isReturn : character = '\r'
      · subst isReturn
        exact ⟨[], [], rfl⟩
      · refine ⟨[character], [], ?_⟩
        rw [splitLines.eq_5 _ _ notFeed (fun _ same => absurd same isReturn) (List.cons_ne_nil _ _)]
        rfl
  | case5 character rest notFeed notReturn nonempty _ ih
  | case6 character rest notFeed notReturn nonempty _ _ _ ih =>
      obtain ⟨line, lines, cut⟩ := ih
      refine ⟨character :: line, lines, ?_⟩
      rw [List.cons_append, splitLines.eq_5 _ _ notFeed, cut]
      · rfl
      · intro others isReturn same
        cases rest with
        | nil => exact nonempty rfl
        | cons first others =>
            cases (List.cons_eq_cons.mp same).1
            exact notReturn others isReturn rfl
      · exact fun none => nonempty (List.append_eq_nil_iff.mp none).1

/-- A text without line ends is the line in front of a line feed. -/
theorem splitLines_append_of_not_mem {line : List Char} (noFeed : '\n' ∉ line)
    (noReturn : '\r' ∉ line) (after : List Char) :
    splitLines (line ++ '\n' :: after) = line :: splitLines after := by
  induction line with
  | nil => rfl
  | cons character line ih =>
      rw [List.mem_cons, not_or] at noFeed noReturn
      rw [List.cons_append, splitLines.eq_5 _ _ (fun same => noFeed.1 same.symm)
        (fun _ same => absurd same.symm noReturn.1) (by simp), ih noFeed.2 noReturn.2]

/-- **The last line is that of what follows a line feed.** -/
theorem getLast?_splitLines_append (before after : List Char) (nonempty : splitLines after ≠ []) :
    (splitLines (before ++ '\n' :: after)).getLast? = (splitLines after).getLast? := by
  obtain ⟨line, lines, cut⟩ := splitLines_append_lineFeed before after
  rw [cut, List.getLast?_append, List.getLast?_eq_some_getLast nonempty, Option.some_or]

end SampleMethods.Text
