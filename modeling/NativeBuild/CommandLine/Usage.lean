namespace NativeBuild

inductive UsageError where
  | invalidValue
  | refusedValue
  | unknownArgument
  | unknownSubcommand
  | missingSubcommand
  | missingArgument
  | needlessValue
  | conflict
  | help
  | version
  | helpForNothing
  deriving DecidableEq, Repr

namespace UsageError

def isWish : UsageError → Bool
  | help | version => true
  | _ => false

def exitCode (e : UsageError) : Nat := if e.isWish then 0 else 2

end UsageError

end NativeBuild
