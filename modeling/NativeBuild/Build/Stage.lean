namespace NativeBuild

inductive Stage where
  | frontEndCompile
  | wholeProgramScan
  | codegen
  | objectEmit
  | platformPatch
  | link
  | postLinkFixups
  deriving DecidableEq, Repr, Inhabited

namespace Stage

def all : List Stage :=
  [frontEndCompile, wholeProgramScan, codegen, objectEmit, platformPatch, link, postLinkFixups]

def name : Stage → String
  | frontEndCompile => "front-end compile"
  | wholeProgramScan => "whole-program scan"
  | codegen => "codegen"
  | objectEmit => "native object emit"
  | platformPatch => "platform patch"
  | link => "link"
  | postLinkFixups => "post-link fixups"

end Stage

inductive Outcome where
  | ran
  | skipped
  | failed
  deriving DecidableEq, Repr

structure BuildFailure where
  stage : Stage
  message : String
  exitCode : Int
  deriving DecidableEq, Repr

def BuildFailure.display (f : BuildFailure) : String := f.stage.name ++ " failed: " ++ f.message

structure BuildReport where
  stages : List (Stage × Outcome) := []
  failure : Option BuildFailure := none
  deriving DecidableEq, Repr, Inhabited

namespace BuildReport

def outcome? (r : BuildReport) (stage : Stage) : Option Outcome :=
  (r.stages.find? (fun e => e.1 = stage)).map (·.2)

def ran (r : BuildReport) (stage : Stage) : Bool := r.outcome? stage == some .ran

def isSuccess (r : BuildReport) : Bool := r.failure.isNone

def exitCode (r : BuildReport) : Int := (r.failure.map (·.exitCode)).getD 0

end BuildReport

end NativeBuild
