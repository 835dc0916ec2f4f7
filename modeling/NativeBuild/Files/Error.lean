import NativeBuild.Text.Decimal

namespace NativeBuild

inductive FileError where
  | notFound
  | notExecutable
  | denied
  | alreadyExists
  | notADirectory
  | isADirectory
  | nameTooLong
  | tooManyLinks
  | zeroInName
  | zeroInArgument
  | notText
  deriving DecidableEq, Repr

namespace FileError

def reason : FileError → String
  | notFound => "No such file or directory"
  | notExecutable => "Exec format error"
  | denied => "Permission denied"
  | alreadyExists => "File exists"
  | notADirectory => "Not a directory"
  | isADirectory => "Is a directory"
  | nameTooLong => "File name too long"
  | tooManyLinks => "Too many levels of symbolic links"
  | zeroInName => "file name contained an unexpected NUL byte"
  | zeroInArgument => "nul byte found in provided data"
  | notText => "stream did not contain valid UTF-8"

def number? : FileError → Option Nat
  | notFound => some 2
  | notExecutable => some 8
  | denied => some 13
  | alreadyExists => some 17
  | notADirectory => some 20
  | isADirectory => some 21
  | nameTooLong => some 36
  | tooManyLinks => some 40
  | zeroInName | zeroInArgument | notText => none

def message (e : FileError) : String :=
  match e.number? with
  | some n => e.reason ++ " (os error " ++ String.ofList (Text.decimal n) ++ ")"
  | none => e.reason

end FileError

structure FileFailure where
  doing : String
  cause : FileError
  deriving DecidableEq, Repr

def FileFailure.message (e : FileFailure) : String := e.doing ++ ": " ++ e.cause.message

end NativeBuild
