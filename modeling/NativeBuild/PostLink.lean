import NativeBuild.Command
import NativeBuild.Layout
import NativeBuild.Tools

namespace NativeBuild

structure PostLinkSteps where
  elfPatch : Option Command
  splitSymbols : List Command
  deriving DecidableEq, Repr

structure FailedCommand where
  command : Command
  exitCode : Int
  deriving DecidableEq, Repr

namespace PostLinkSteps

def elfPatchCommand (tools : Tools) (paths : BuildPaths) : Command :=
  ⟨tools.patchElf, [paths.output.text, paths.patched.text,
    "--fix-init-array", "--fix-tdata", "--split-code-data", "--remove-eh"]⟩

def splitCommands (tools : Tools) (paths : BuildPaths) : List Command := [
  ⟨tools.objcopy, ["--only-keep-debug", paths.output.text, paths.debugSymbols.text]⟩,
  ⟨tools.objcopy, ["--strip-debug", "--strip-unneeded", paths.output.text]⟩,
  ⟨tools.objcopy, ["--add-gnu-debuglink=" ++ paths.debugSymbols.text, paths.output.text]⟩]

def splits (profile : Profile) (policy : Policy) : Bool :=
  policy.debugInfo && policy.separateSymbols && !profile.os.isPe

def plan (profile : Profile) (policy : Policy) (tools : Tools) (paths : BuildPaths) : PostLinkSteps where
  elfPatch := if profile.libc = .zisk then some (elfPatchCommand tools paths) else none
  splitSymbols := if splits profile policy then splitCommands tools paths else []

def isEmpty (s : PostLinkSteps) : Bool := s.elfPatch.isNone && s.splitSymbols.isEmpty

def commands (s : PostLinkSteps) : List Command := s.elfPatch.toList ++ s.splitSymbols

variable {σ : Type} (execute : σ → Command → Except String Int × σ)

def runAll (state : σ) : List Command → Except String (Option FailedCommand) × σ
  | [] => (.ok none, state)
  | c :: cs =>
    match execute state c with
    | (.error e, state) => (.error e, state)
    | (.ok code, state) => if code = 0 then runAll state cs else (.ok (some ⟨c, code⟩), state)

def run (state : σ) (s : PostLinkSteps) : Except String (Option FailedCommand) × σ :=
  match s.elfPatch with
  | none => runAll execute state s.splitSymbols
  | some patch =>
    match execute state patch with
    | (.error e, state) => (.error e, state)
    | (.ok _, state) => runAll execute state s.splitSymbols

end PostLinkSteps

end NativeBuild
