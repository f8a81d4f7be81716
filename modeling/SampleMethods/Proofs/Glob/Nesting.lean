import Mathlib.Data.List.Basic
import SampleMethods.Glob.Compiler
import SampleMethods.Glob.Parser

/-!
# Patterns that are nested too deeply

Patterns are refused just if a regular expression is needed for one that is nested too deeply
(`refusal?_eq_none_iff`). Each pair of braces nests a pattern more deeply by one
(`nestingOf_alternatives`), so there are patterns that can be read and are refused
(`refusal?_braced`).
-/

set_option autoImplicit false

namespace SampleMethods.Glob

/-! ## What is refused -/

/-- **Patterns are refused just if one of them that needs a regular expression is nested too
deeply.** -/
theorem refusal?_eq_none_iff {globs : List Glob} :
    nestingCompiler.refusal? globs = none ↔
      ∀ glob ∈ globs, isExpression glob.tokens = true → nestingIn glob.tokens ≤ nestingLimit := by
  have isFine (glob : Glob) :
      isTooDeep glob = false ↔ nestingIn glob.tokens ≤ nestingLimit := by
    rw [isTooDeep, decide_eq_false_iff_not, Nat.not_lt]
  change (tooDeep? globs).map _ = none ↔ _
  simp only [Option.map_eq_none_iff, tooDeep?, List.partition_eq_filter_filter]
  split
  · rename_i someAlone
    refine iff_of_false (fun same => nomatch same) fun allFine => ?_
    obtain ⟨glob, isAlone, deep⟩ := List.any_eq_true.mp someAlone
    have ⟨isMember, expression⟩ := List.mem_filter.mp (List.mem_filter.mp isAlone).1
    rw [(isFine glob).mpr (allFine glob isMember expression)] at deep
    cases deep
  · rename_i noneAlone
    simp only [Bool.not_eq_true, List.any_eq_false, List.mem_filter, and_imp] at noneAlone
    simp only [List.findIdx?_eq_none_iff, List.mem_filter, and_imp, isFine]
    refine forall_congr' fun glob => forall_congr' fun isMember =>
      forall_congr' fun expression => ⟨fun together => ?_, fun fine _ => fine⟩
    cases extended : hasExtension glob.tokens.reverse with
    | false => exact together (by simp [extended])
    | true => exact (isFine glob).mp (noneAlone glob isMember expression extended)

/-! ## Braces -/

/-- A token that stands for something is nested more deeply by one in braces of its own. -/
theorem nestingOf_alternatives {token : Token} (part : partsOf token = 1)
    (some : isVoidToken token = false) :
    nestingOf (.alternatives [[token]]) = nestingOf token + 1 := by
  simp [nestingOf, areVoid, isVoid, some, deepestBranch, deepestIn, partsIn, part, rowNesting,
    Nat.add_comm]

/-- A letter in a number of braces, as it is written. -/
def bracedText : Nat → List Char
  | 0 => ['a']
  | braces + 1 => '\x7b' :: (bracedText braces ++ ['\x7d'])

/-- A letter in a number of braces. -/
def braced : Nat → Token
  | 0 => .literal 'a'
  | braces + 1 => .alternatives [[braced braces]]

theorem isVoidToken_braced : ∀ braces, isVoidToken (braced braces) = false
  | 0 => rfl
  | braces + 1 => by simp [braced, isVoidToken, areVoid, isVoid, isVoidToken_braced braces]

theorem partsOf_braced : ∀ braces, partsOf (braced braces) = 1
  | 0 => by decide
  | braces + 1 => by simp [braced, partsOf, areVoid, isVoid, isVoidToken_braced]

/-- Letters in braces are nested as deeply as there are braces. -/
theorem nestingOf_braced (braces : Nat) : nestingOf (braced braces) = braces := by
  induction braces with
  | zero => rfl
  | succ braces ih =>
      rw [braced, nestingOf_alternatives (partsOf_braced braces) (isVoidToken_braced braces), ih]

/-- Braces are read to the token that they enclose, on whichever level they stand. -/
theorem read_braced (braces : Nat) (previous : Option Char) (levels : Levels) (rest : List Char) :
    ∃ last, read .plain previous levels (bracedText braces ++ rest) =
      read .plain last (levels.push (braced braces)) rest := by
  induction braces generalizing previous levels rest with
  | zero => exact ⟨some 'a', rfl⟩
  | succ braces ih =>
      obtain ⟨last, inner⟩ := ih (some '\x7b') levels.openGroup ('\x7d' :: rest)
      refine ⟨some '\x7d', ?_⟩
      calc read .plain previous levels (bracedText (braces + 1) ++ rest)
          = read .plain (some '\x7b') levels.openGroup
              (bracedText braces ++ '\x7d' :: rest) := by
            rw [bracedText, List.cons_append, List.append_assoc]
            rfl
        _ = read .plain last (levels.openGroup.push (braced braces)) ('\x7d' :: rest) := inner
        _ = read .plain (some '\x7d') (levels.push (braced (braces + 1))) rest := rfl

/-- **Braces can be read, however many there are.** -/
theorem parse_bracedText (braces : Nat) :
    parse (.ofList (bracedText braces)) = .ok ⟨.ofList (bracedText braces), [braced braces]⟩ := by
  obtain ⟨last, isRead⟩ := read_braced braces none ⟨[], []⟩ []
  rw [List.append_nil] at isRead
  rw [parse, String.toList_ofList, isRead]
  rfl

/-- **Too many braces are refused.** -/
theorem refusal?_braced {braces : Nat} (deep : nestingLimit ≤ braces) :
    nestingCompiler.refusal? [⟨.ofList (bracedText braces), [braced braces]⟩] =
      some "error parsing pattern 0" := by
  have isDeep (text : String) : isTooDeep ⟨text, [braced braces]⟩ = true := by
    rw [isTooDeep, decide_eq_true_iff, nestingIn, deepestIn, deepestIn, nestingOf_braced]
    omega
  have place (text : String) : tooDeep? [⟨text, [braced braces]⟩] = some 0 := by
    cases braces with
    | zero => cases deep
    | succ braces =>
        change ([_].findIdx? isTooDeep) = some 0
        rw [List.findIdx?_cons, isDeep, if_pos rfl]
  change (tooDeep? _).map _ = _
  rw [place]
  rfl

end SampleMethods.Glob
