import NativeBuild.Build.Workshop
import NativeBuild.Diagnostic.Line
import NativeBuild.Text.Replace

namespace NativeBuild.Rehearsal

structure CommandRule where
  contains : String
  exitCode : Option Int
  deriving DecidableEq, Repr

def decide (rules : List CommandRule) (command : Command) : Except String Int :=
  match rules.find? (fun r => Text.containsText r.contains.toList command.line.toList) with
  | none => .ok 0
  | some ⟨_, some code⟩ => .ok code
  | some ⟨_, none⟩ => .error s!"failed to execute `{command.line}`: not found"

structure FrontEndPart where
  toolError : Option String := none
  output : String := ""
  fails : Bool := false
  deriving DecidableEq, Repr

def ilText : List UInt8 := Text.encodeUtf8 "IL".toList

def compile (part : FrontEndPart) (files : FileTree) (request : FrontEndRequest) :
    Reply (Except FrontEndFailure Il) :=
  match part.toolError with
  | some e => ⟨.error (.tool e), files, {}⟩
  | none =>
    let found := Diagnostic.ofOutput part.output
    if found.any (·.isError) || part.fails then ⟨.error (.diagnostics found), files, {}⟩
    else
      match files.write request.output ilText with
      | (.ok (), files) => ⟨.ok ⟨request.output, found⟩, files, {}⟩
      | (.error e, files) => ⟨.error (.tool e.message), files, {}⟩

structure CodegenPart where
  program : ProgramGraph
  loadError : Option String := none
  compileError : Option String := none
  object : Option (List UInt8)

def load (part : CodegenPart) : Except String ProgramGraph :=
  match part.loadError with
  | some e => .error ("load failed: " ++ e)
  | none => .ok part.program

def generate (part : CodegenPart) (files : FileTree) (request : CodegenRequest) (program : ProgramGraph)
    (scan : Option ScanResult) : Reply (Except CodegenFailure CodegenOutput) :=
  let provider := (scan.map program.refine).getD program
  let output : CodegenOutput := ⟨request.object, provider.exports⟩
  match provider.importReachable scan, part.compileError, part.object with
  | .error e, _, _ => ⟨.error e, files, {}⟩
  | .ok _, some e, _ => ⟨.error (.failed e), files, {}⟩
  | .ok _, none, none => ⟨.ok output, files, {}⟩
  | .ok _, none, some bytes =>
    match files.write request.object bytes with
    | (.ok (), files) => ⟨.ok output, files, {}⟩
    | (.error e, files) => ⟨.error (.failed e.message), files, {}⟩

def workshop (frontEnd : FrontEndPart) (codegen : CodegenPart) (rules : List CommandRule) : Workshop where
  compile _ files request := compile frontEnd files request
  load _ files _ := ⟨load codegen, files, {}⟩
  generate _ files request program scan := generate codegen files request program scan
  execute _ files command := ⟨decide rules command, files, {}⟩

end NativeBuild.Rehearsal
