/-
  TemplateLint.Files.FileError — why a file cannot be read.

  The causes that lie in a path or in a text have names.  All others are the
  system's own, such as a permission that is missing, and are told in its words.
  A directory that cannot be listed is no file, but it ends a run like one.
-/
import TemplateLint.Files.Path
import TemplateLint.Text.Decimal

namespace TemplateLint

/-- An error as the system tells it. -/
structure SystemError where
  number : Nat
  wording : String
  deriving DecidableEq, Repr

/-- The wording of the error, with its number. -/
def SystemError.message (e : SystemError) : String :=
  e.wording ++ " (os error " ++ Decimal.render e.number ++ ")"

/-- Why a path leads to no text. -/
inductive FileError where
  /-- Nothing stands there. -/
  | notFound
  /-- The path goes through something that is no directory. -/
  | notDirectory
  /-- It leads to a directory. -/
  | isDirectory
  /-- A name, or the path, is too long. -/
  | nameTooLong
  /-- It leads through too many links. -/
  | tooManyLinks
  /-- The path holds a zero byte. -/
  | zeroByte
  /-- The content is no UTF-8. -/
  | notText
  /-- The system refuses to read it. -/
  | refused (error : SystemError)
  /-- It leads to a directory, and the system refuses to list the one at
  `place`: this directory, or one below it that is searched. -/
  | unlistable (place : Path) (error : SystemError)
  deriving DecidableEq, Repr

namespace FileError

/-- The wording of the error. -/
def message : FileError → String
  | notFound => "No such file or directory (os error 2)"
  | notDirectory => "Not a directory (os error 20)"
  | isDirectory => "Is a directory (os error 21)"
  | nameTooLong => "File name too long (os error 36)"
  | tooManyLinks => "Too many levels of symbolic links (os error 40)"
  | zeroByte => "file name contained an unexpected NUL byte"
  | notText => "stream did not contain valid UTF-8"
  | refused error => error.message
  | unlistable place error =>
    "IO error for operation on " ++ place.display ++ ": " ++ error.message

/-- What could not be done with the path. -/
def attempt : FileError → String
  | unlistable _ _ => "walk"
  | _ => "read"

/-- The wording of the error and of what is behind it. -/
def causes : FileError → List String
  | unlistable place error => [message (unlistable place error), error.message]
  | error => [error.message]

end FileError

end TemplateLint
