/-!
# File errors

Why an operation on files fails.
-/

set_option autoImplicit false

namespace SampleMethods

/-- Why an operation on files fails. -/
inductive FileError where
  | notFound
  | alreadyExists
  | notDirectory
  | isDirectory
  | nameTooLong
  | notEmpty
  | tooManyLinks
  /-- The content of the file is no text. -/
  | notText
  /-- A path holds the character with the code point zero. -/
  | nulInPath
  /-- Another reason, as a sentence with a number. -/
  | other (sentence : String) (number : Nat)
deriving DecidableEq, Repr

namespace FileError

/-- A sentence with the number of the error. -/
def numbered (sentence : String) (number : Nat) : String :=
  sentence ++ " (os error " ++ toString number ++ ")"

/-- The sentence that states the error. -/
def message : FileError → String
  | notFound => numbered "No such file or directory" 2
  | alreadyExists => numbered "File exists" 17
  | notDirectory => numbered "Not a directory" 20
  | isDirectory => numbered "Is a directory" 21
  | nameTooLong => numbered "File name too long" 36
  | notEmpty => numbered "Directory not empty" 39
  | tooManyLinks => numbered "Too many levels of symbolic links" 40
  | notText => "stream did not contain valid UTF-8"
  | nulInPath => "file name contained an unexpected NUL byte"
  | other sentence number => numbered sentence number

end FileError

end SampleMethods
