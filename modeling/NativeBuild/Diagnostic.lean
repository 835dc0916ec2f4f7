import NativeBuild.Path.Basic
import NativeBuild.Text.Decimal

namespace NativeBuild

inductive Severity where
  | error
  | warning
  | info
  deriving DecidableEq, Repr, Inhabited

namespace Severity

def all : List Severity := [error, warning, info]

def name : Severity → String
  | error => "error"
  | warning => "warning"
  | info => "info"

def colored : Severity → String
  | error => "\x1b[1;31merror\x1b[0m"
  | warning => "\x1b[1;33mwarning\x1b[0m"
  | info => "\x1b[1;36minfo\x1b[0m"

end Severity

structure SourceLocation where
  path : Path
  line : UInt32
  column : UInt32
  deriving DecidableEq, Repr

def SourceLocation.display (l : SourceLocation) : String :=
  l.path.text ++ "(" ++ String.ofList (Text.decimal l.line.toNat) ++ "," ++
    String.ofList (Text.decimal l.column.toNat) ++ ")"

structure Diagnostic where
  message : String
  severity : Severity
  code : Option String
  location : Option SourceLocation
  suggestions : List String
  deriving DecidableEq, Repr

namespace Diagnostic

def isError (d : Diagnostic) : Bool := d.severity == .error

def format (d : Diagnostic) (color : Bool) : String :=
  (d.location.map (fun l => l.display ++ ": ")).getD "" ++
  (if color then d.severity.colored else d.severity.name) ++
  (d.code.map (" " ++ ·)).getD "" ++ ": " ++ d.message ++ "\n" ++
  String.join (d.suggestions.map (fun s => "  " ++ s ++ "\n"))

end Diagnostic

end NativeBuild
