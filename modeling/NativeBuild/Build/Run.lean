import NativeBuild.Build.Context
import NativeBuild.Build.Workshop
import NativeBuild.Exports
import NativeBuild.Patch

namespace NativeBuild

structure StageFailure where
  message : String
  exitCode : Int := 1
  deriving DecidableEq, Repr

structure Artifacts where
  il : Option Il := none
  program : Option ProgramGraph := none
  scan : Option ScanResult := none
  output : Option CodegenOutput := none

abbrev StageResult := Except StageFailure Artifacts × Bench

def CodegenFailure.chain : CodegenFailure → String
  | e@(.importing _ cause) => e.message ++ ": " ++ cause.message
  | e => e.message

namespace Build

def compileStage (c : BuildContext) (w : Workshop) (workDirectory : Path) (a : Artifacts) (b : Bench) :
    StageResult :=
  match b.compile w (c.frontEndRequest (workDirectory.child c.ilName)) with
  | (.ok il, b) => (.ok { a with il := some il }, b.note (.reported il.warnings))
  | (.error failure, b) => (.error ⟨failure.message, 1⟩, b.note (.reported failure.shown))

def requestFor (c : BuildContext) (a : Artifacts) : Except StageFailure CodegenRequest :=
  match a.il with
  | some il => .ok (c.codegenRequest il.path)
  | none => .error ⟨"no IL was produced", 1⟩

def scanStage (c : BuildContext) (w : Workshop) (a : Artifacts) (b : Bench) : StageResult :=
  match requestFor c a with
  | .error e => (.error e, b)
  | .ok request =>
    match b.load w request with
    | (.error e, b) => (.error ⟨e, 1⟩, b)
    | (.ok program, b) => (.ok { a with program := some program, scan := some program.scan }, b)

def programFor (w : Workshop) (request : CodegenRequest) (a : Artifacts) (b : Bench) :
    Except String ProgramGraph × Bench :=
  match a.program with
  | some program => (.ok program, b)
  | none => b.load w request

def codegenStage (c : BuildContext) (w : Workshop) (a : Artifacts) (b : Bench) : StageResult :=
  match requestFor c a with
  | .error e => (.error e, b)
  | .ok request =>
    match programFor w request a b with
    | (.error e, b) => (.error ⟨e, 1⟩, b)
    | (.ok program, b) =>
      match b.generate w request program a.scan with
      | (.error e, b) => (.error ⟨e.chain, 1⟩, b)
      | (.ok output, b) => (.ok { a with program := none, scan := none, output := some output }, b)

def emitStage (c : BuildContext) (a : Artifacts) (b : Bench) : StageResult :=
  match a.output with
  | none => (.error ⟨"codegen produced no object", 1⟩, b)
  | some output =>
    if b.files.isFile output.object then
      match c.paths.exports with
      | none => (.ok a, b)
      | some exports =>
        match b.files.writeText exports (Exports.render c.profile.os output.exportedSymbols) with
        | (.ok (), files) => (.ok a, { b with files })
        | (.error e, files) => (.error ⟨e.message, 1⟩, { b with files })
    else (.error ⟨"object file '" ++ output.object.text ++ "' was not written", 1⟩, b)

def patchStage (c : BuildContext) (a : Artifacts) (b : Bench) : StageResult :=
  match Patch.applyAll b.files c.patchTargets with
  | (.ok (), files) => (.ok a, { b with files })
  | (.error e, files) => (.error ⟨e.message, 1⟩, { b with files })

def discard (c : BuildContext) (p : Path) (b : Bench) : Bench :=
  if c.policy.keepObject then b else { b with files := b.files.removeQuietly p }

def discardExports (c : BuildContext) (b : Bench) : Bench :=
  match c.paths.exports with
  | some exports => discard c exports b
  | none => b

def printHint : String := "help: Run with `-x` to print the commands being run"

def exitedWith (what : String) (code : Int) : StageFailure := ⟨s!"{what} exited with code {code}", code⟩

def linkStage (c : BuildContext) (w : Workshop) (a : Artifacts) (b : Bench) : StageResult :=
  match b.execute w c.linkCommand with
  | (.error e, b) => (.error ⟨e ++ "\n" ++ printHint, 1⟩, discard c c.paths.object b)
  | (.ok code, b) =>
    let b := discard c c.paths.object b
    if code = 0 then (.ok a, discardExports c b) else (.error (exitedWith "linker" code), b)

def fixupStage (c : BuildContext) (w : Workshop) (a : Artifacts) (b : Bench) : StageResult :=
  match PostLinkSteps.run (Bench.execute w) b c.postLinkSteps with
  | (.error e, b) => (.error ⟨e, 1⟩, b)
  | (.ok none, b) => (.ok a, b)
  | (.ok (some failed), b) => (.error (exitedWith failed.command.toolName failed.exitCode), b)

def perform (c : BuildContext) (w : Workshop) (workDirectory : Path) (stage : Stage) (a : Artifacts)
    (b : Bench) : StageResult :=
  match stage with
  | .frontEndCompile => compileStage c w workDirectory a b
  | .wholeProgramScan => scanStage c w a b
  | .codegen => codegenStage c w a b
  | .objectEmit => emitStage c a b
  | .platformPatch => patchStage c a b
  | .link => linkStage c w a b
  | .postLinkFixups => fixupStage c w a b

def runStages (c : BuildContext) (w : Workshop) (workDirectory : Path) :
    List Stage → Artifacts → Bench → BuildReport × Bench
  | [], _, b => ({}, b)
  | stage :: rest, a, b =>
    if c.runs stage then
      match perform c w workDirectory stage a b with
      | (.error e, b) =>
        (⟨[(stage, .failed)], some ⟨stage, e.message, e.exitCode⟩⟩, discard c c.paths.object b)
      | (.ok a, b) =>
        let (report, b) := runStages c w workDirectory rest a b
        ({ report with stages := (stage, .ran) :: report.stages }, b)
    else
      let (report, b) := runStages c w workDirectory rest a b
      ({ report with stages := (stage, .skipped) :: report.stages }, b)

def noWorkDirectory (p : Path) (e : FileError) : BuildReport where
  stages := [(.frontEndCompile, .failed)]
  failure := some
    ⟨.frontEndCompile, s!"failed to create a working directory: {e.message} at path \"{p.text}\"", 1⟩

def clear (t : FileTree) (p : Path) : FileTree :=
  match t.locate p with
  | .ok place => t.removeAll place
  | .error _ => t

def run (c : BuildContext) (w : Workshop) (workDirectory : Path) (files : FileTree) : BuildReport × Bench :=
  match files.makeDirectory workDirectory with
  | (.error e, files) => (noWorkDirectory workDirectory e, ⟨files, []⟩)
  | (.ok (), files) =>
    let (report, b) := runStages c w workDirectory Stage.all {} ⟨files, []⟩
    (report, { b with files := clear b.files workDirectory })

end Build

end NativeBuild
