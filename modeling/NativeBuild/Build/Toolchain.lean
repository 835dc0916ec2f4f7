import NativeBuild.Build.Workshop
import NativeBuild.Diagnostic.Line
import NativeBuild.Program.Load
import NativeBuild.Program.Scan

namespace NativeBuild

inductive LoadFailure where
  | noRoom (file : Path) (e : FileError)
  | notStarted (program : Path) (e : FileError)
  | exited (command : Command) (code : Nat)
  | unreadable (file : Path) (e : FileError)
  | malformed (file : Path)
  deriving DecidableEq, Repr

def notStartedMessage (program : Path) (e : FileError) : String :=
  s!"failed to execute `{program.text}`: {e.message}"

def exitedMessage (what : String) (code : Nat) : String := s!"`{what}` exited with code {code}"

def LoadFailure.message : LoadFailure → String
  | noRoom file e => s!"failed to create program graph file: {e.message} at path \"{file.text}\""
  | notStarted program e => notStartedMessage program e
  | exited command code => exitedMessage command.line code
  | unreadable file e => s!"failed to read program graph: {file.text}: {e.message}"
  | malformed file => s!"failed to parse program graph: {file.text}"

structure Toolchain where
  machine : Machine
  frontEnd : Path
  codegen : Path
  temporary : Path
  printCommands : Bool := false

namespace Toolchain

def diagnosticsOf (o : Output) : List Diagnostic :=
  Diagnostic.ofOutput (String.ofList (Text.decodeLossy o.out ++ Text.decodeLossy o.err))

def compile (c : Toolchain) (files : FileTree) (request : FrontEndRequest) :
    Reply (Except FrontEndFailure Il) :=
  match c.machine.start files ⟨c.frontEnd, request.args⟩ with
  | .error e => ⟨.error (.tool s!"failed to spawn `{c.frontEnd.text}`: {e.message}"), files, {}⟩
  | .ok r =>
    let found := diagnosticsOf r.output
    if found.any (·.isError) then ⟨.error (.diagnostics found), r.files.removeQuietly request.output, {}⟩
    else if r.succeeded then ⟨.ok ⟨request.output, found⟩, r.files, {}⟩
    else
      ⟨.error (.tool (exitedMessage c.frontEnd.text r.ending.code)), r.files.removeQuietly request.output, {}⟩

def graphFile (c : Toolchain) : Path := c.temporary.child "aotbuild-graph.json"

def scanFile (c : Toolchain) : Path := c.temporary.child "aotbuild-scan.json"

def loadCommand (c : Toolchain) (request : CodegenRequest) : Command :=
  ⟨c.codegen, request.inputArgs ++ ["--emit-graph:" ++ c.graphFile.text]⟩

def readGraph (files : FileTree) (file : Path) : Except LoadFailure ProgramGraph :=
  match files.readText file with
  | .error e => .error (.unreadable file e)
  | .ok text =>
    match ProgramDocument.read text with
    | some d => .ok d.graph
    | none => .error (.malformed file)

def load (c : Toolchain) (files : FileTree) (request : CodegenRequest) :
    Reply (Except LoadFailure ProgramGraph) :=
  match files.write c.graphFile [] with
  | (.error e, files) => ⟨.error (.noRoom c.graphFile e), files, {}⟩
  | (.ok (), files) =>
    let command := c.loadCommand request
    match c.machine.start files command with
    | .error e => ⟨.error (.notStarted c.codegen e), files.removeQuietly c.graphFile, {}⟩
    | .ok r =>
      let result :=
        if r.succeeded then readGraph r.files c.graphFile
        else .error (.exited command r.ending.code)
      ⟨result, r.files.removeQuietly c.graphFile, r.output⟩

def generateCommand (c : Toolchain) (request : CodegenRequest) (scanned : Bool) : Command :=
  ⟨c.codegen, request.inputArgs ++ request.args ++
    (if scanned then ["--scan-results:" ++ c.scanFile.text] else [])⟩

def handOver (c : Toolchain) (files : FileTree) (scan : Option ScanResult) : FileResult Unit :=
  match scan with
  | some s => files.write c.scanFile (Text.encodeUtf8 s.written.toList)
  | none => (.ok (), files)

def takeBack (c : Toolchain) (files : FileTree) (scan : Option ScanResult) : FileTree :=
  if scan.isSome then files.removeQuietly c.scanFile else files

def generate (c : Toolchain) (files : FileTree) (request : CodegenRequest) (program : ProgramGraph)
    (scan : Option ScanResult) : Reply (Except CodegenFailure CodegenOutput) :=
  let provider := (scan.map program.refine).getD program
  match provider.importReachable scan with
  | .error e => ⟨.error e, files, {}⟩
  | .ok _ =>
    match c.handOver files scan with
    | (.error e, files) => ⟨.error (.failed ("failed to create scan results file: " ++ e.message)), files, {}⟩
    | (.ok (), files) =>
      match c.machine.start files (c.generateCommand request scan.isSome) with
      | .error e => ⟨.error (.failed (notStartedMessage c.codegen e)), c.takeBack files scan, {}⟩
      | .ok r =>
        let result :=
          if r.succeeded then .ok ⟨request.object, provider.exports⟩
          else .error (.failed (exitedMessage c.codegen.text r.ending.code))
        ⟨result, c.takeBack r.files scan, r.output⟩

def execute (c : Toolchain) (files : FileTree) (command : Command) : Reply (Except String Int) :=
  let told : Output := ⟨if c.printCommands then Text.encodeUtf8 (command.line ++ "\n").toList else [], []⟩
  match c.machine.start files command with
  | .error e => ⟨.error (notStartedMessage command.program e), files, told⟩
  | .ok r => ⟨.ok r.ending.code, r.files, told ++ r.output⟩

def workshop (c : Toolchain) : Workshop where
  compile _ files request := c.compile files request
  load _ files request :=
    let reply := c.load files request
    ⟨reply.result.mapError LoadFailure.message, reply.files, reply.output⟩
  generate _ files request program scan := c.generate files request program scan
  execute _ files command := c.execute files command

end Toolchain

end NativeBuild
