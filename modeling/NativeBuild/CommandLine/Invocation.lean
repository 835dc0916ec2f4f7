import NativeBuild.CommandLine.Reading

namespace NativeBuild

structure Invocation where
  subcommand : Subcommand
  verbose : Bool
  quiet : Bool
  color : ColorChoice
  given : Given
  deriving DecidableEq, Repr

namespace Invocation

def helpOn : List String → UsageError
  | [] => .help
  | [word] => if word ∈ Grammar.program.subcommands then .help else .unknownSubcommand
  | _ => .unknownSubcommand

def ofGiven (subcommand : Subcommand) (before given : Given) : Invocation where
  subcommand
  verbose := before.isSet .verbose || given.isSet .verbose
  quiet := before.isSet .quiet || given.isSet .quiet
  color := (((given.value? .color).or (before.value? .color)).bind ColorChoice.ofName?).getD .auto
  given

def readSubcommand (subcommand : Subcommand) (args : List String) : Except UsageError Given := do
  let g := Grammar.ofSubcommand subcommand
  let (r, _) ← ({} : Reading).takeAll g args
  r.finish g

def read (args : List String) : Except UsageError Invocation := do
  let (before, rest) ← ({} : Reading).takeAll Grammar.program args
  match rest with
  | [] =>
    let before ← before.settle
    throw (if before.given = [] then .helpForNothing else .missingSubcommand)
  | word :: args =>
    match Subcommand.ofName? word with
    | none => throw (helpOn args)
    | some subcommand =>
      let given ← readSubcommand subcommand args
      return ofGiven subcommand (← before.finish Grammar.program) given

end Invocation

end NativeBuild
