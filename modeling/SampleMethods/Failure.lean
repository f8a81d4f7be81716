import SampleMethods.FileError
import SampleMethods.Glob.Basic
import SampleMethods.Json.Error
import SampleMethods.Script.SyntaxError
import SampleMethods.Text.Split
import SampleMethods.Yaml.Error

/-!
# Failures

A failure is a cause and what was being done when it came up. Each step that
passes a failure on may put what it was about in front.
-/

set_option autoImplicit false

namespace SampleMethods

/-- Why something cannot be done. -/
inductive Failure.Cause where
  | file (error : FileError)
  | json (error : Json.Error)
  | glob (error : Glob.Error)
  /-- Patterns cannot be put together to a set, for a reason in a sentence. -/
  | globSet (reason : String)
  | script (error : Script.SyntaxError)
  | yaml (error : Yaml.Error)
  /-- A cause that has no kind of its own, as a sentence. -/
  | other (message : String)

/-- The sentence that states a cause. -/
def Failure.Cause.message : Failure.Cause → String
  | file error => error.message
  | json error => error.message
  | glob error => error.message
  | globSet reason => reason
  | script error => "Parse error: " ++ error.message
  | yaml error => error.message
  | other message => message

/-- A cause, and what was being done, the outermost step first. -/
structure Failure where
  steps : List String
  cause : Failure.Cause

namespace Failure

/-- A failure outside of any step. -/
def of (cause : Cause) : Failure :=
  ⟨[], cause⟩

/-- A failure for a reason that has no kind of its own. -/
def because (message : String) : Failure :=
  of (.other message)

/-- The failure of a step, which the given failure ends. -/
def within (step : String) (failure : Failure) : Failure :=
  ⟨step :: failure.steps, failure.cause⟩

/-- The sentences of a failure: its steps and its cause. -/
def sentences (failure : Failure) : List String :=
  failure.steps ++ [failure.cause.message]

/-- The failure on one line. -/
def message (failure : Failure) : String :=
  ": ".intercalate failure.sentences

/-- The outermost sentence of a failure. -/
def headline (failure : Failure) : String :=
  failure.steps.head?.getD failure.cause.message

/-- A number of blanks. -/
def blanks (count : Nat) : String :=
  String.ofList (List.replicate count ' ')

/-- A sentence behind a lead, with blanks in front of its further lines. -/
def hang (lead : String) (indent : Nat) (sentence : String) : String :=
  lead ++ String.ofList (Text.join ('\n' :: (blanks indent).toList) (Text.cutAt '\n' sentence.toList))

/-- The sentences behind the outermost one, with a number each if there is more than one of
them. -/
def details (failure : Failure) : List String :=
  match failure.sentences.tail with
  | [] => []
  | [sentence] => ["", "Caused by:", hang (blanks 4) 4 sentence]
  | sentences =>
    ["", "Caused by:"] ++
      sentences.mapIdx fun index sentence =>
        let number := toString index
        hang (blanks (5 - number.length) ++ number ++ ": ") 7 sentence

/-- The failure over many lines. -/
def report (failure : Failure) : String :=
  "\n".intercalate (failure.headline :: failure.details)

/-- The result, or the failure as that of a step. -/
def during {α : Type} (step : String) (result : Except Failure α) : Except Failure α :=
  result.mapError (Failure.within step)

end Failure

end SampleMethods
