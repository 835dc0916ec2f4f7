import NativeBuild.Codegen.Request
import NativeBuild.Files.Update
import NativeBuild.FrontEnd
import NativeBuild.Machine
import NativeBuild.Program.Import

/-!
The helpers of a build: a front-end, a code generator, and something that runs commands. Each is a
function of what was done before, of the files as they are, and of what it is asked; it gives back the
files as it leaves them. What a build asked of them is its trace.
-/

namespace NativeBuild

structure CodegenOutput where
  object : Path
  exportedSymbols : List String
  deriving DecidableEq, Repr

inductive Deed where
  | compiled (request : FrontEndRequest)
  | reported (diagnostics : List Diagnostic)
  | loaded (request : CodegenRequest)
  | generated (request : CodegenRequest) (scanned : Bool)
  | ran (command : Command) (files : FileTree)

structure Event where
  deed : Deed
  output : Output := {}

abbrev Trace := List Event

def Trace.commands (trace : Trace) : List Command :=
  trace.filterMap (fun e => match e.deed with | .ran c _ => some c | _ => none)

structure Reply (α : Type) where
  result : α
  files : FileTree
  output : Output := {}

structure Workshop where
  compile : Trace → FileTree → FrontEndRequest → Reply (Except FrontEndFailure Il)
  load : Trace → FileTree → CodegenRequest → Reply (Except String ProgramGraph)
  generate : Trace → FileTree → CodegenRequest → ProgramGraph → Option ScanResult →
    Reply (Except CodegenFailure CodegenOutput)
  execute : Trace → FileTree → Command → Reply (Except String Int)

structure Bench where
  files : FileTree
  trace : Trace := []

namespace Bench

def note (b : Bench) (deed : Deed) : Bench := { b with trace := b.trace ++ [⟨deed, {}⟩] }

def after {α : Type} (b : Bench) (deed : Deed) (r : Reply α) : Bench := ⟨r.files, b.trace ++ [⟨deed, r.output⟩]⟩

def compile (b : Bench) (w : Workshop) (request : FrontEndRequest) : Except FrontEndFailure Il × Bench :=
  let r := w.compile b.trace b.files request
  (r.result, b.after (.compiled request) r)

def load (b : Bench) (w : Workshop) (request : CodegenRequest) : Except String ProgramGraph × Bench :=
  let r := w.load b.trace b.files request
  (r.result, b.after (.loaded request) r)

def generate (b : Bench) (w : Workshop) (request : CodegenRequest) (program : ProgramGraph)
    (scan : Option ScanResult) : Except CodegenFailure CodegenOutput × Bench :=
  let r := w.generate b.trace b.files request program scan
  (r.result, b.after (.generated request scan.isSome) r)

def execute (w : Workshop) (b : Bench) (command : Command) : Except String Int × Bench :=
  let r := w.execute b.trace b.files command
  (r.result, b.after (.ran command b.files) r)

end Bench

end NativeBuild
