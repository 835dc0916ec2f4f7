import NativeBuild.Build.Context
import NativeBuild.Discovery

namespace NativeBuild

structure BuildOptions where
  inputs : List Path := []
  output : Option Path := none
  linkType : Option LinkType := none
  target : TargetRequest := {}
  flags : Flags := {}
  references : List Path := []
  defines : List String := []
  langVersion : Option String := none
  map : Option Path := none
  analyseSize : Bool := false
  ldflags : List String := []
  extraInputs : List String := []
  printCommands : Bool := false
  deriving DecidableEq, Repr, Inhabited

structure IlOptions where
  inputs : List Path := []
  output : Option Path := none
  linkType : Option LinkType := none
  target : TargetRequest := {}
  references : List Path := []
  defines : List String := []
  stdlib : StandardLibrary := .dotnet
  langVersion : Option String := none
  deterministic : Bool := false
  noDebugInfo : Bool := false
  optimize : Bool := false
  deriving DecidableEq, Repr, Inhabited

inductive PreparationError where
  | target (e : TargetError)
  | unreadable (e : FileFailure)
  | library (e : Discovery.MissingLibraryDirectory)
  | pattern (e : Glob.BadPattern)
  | noInputs (cwd : Path)
  deriving DecidableEq, Repr

def PreparationError.message : PreparationError → String
  | target e => e.message
  | unreadable e => e.message
  | library e => e.message
  | pattern e => e.chain
  | noInputs cwd => "no input files in " ++ cwd.text

namespace Preparation

def target (request : TargetRequest) (host : Host) : Except PreparationError Profile :=
  (request.resolve host).mapError .target

def linkType (t : FileTree) (given : Option LinkType) (sources : List Path) :
    Except PreparationError LinkType :=
  match given with
  | some k => .ok k
  | none => if sources = [] then .ok .executable else (Discovery.linkType t sources).mapError .unreadable

def references (t : FileTree) (user : List Path) (stdlib : StandardLibrary) (tools : Tools) :
    Except PreparationError (List Path) :=
  (Discovery.references t user stdlib tools.referenceDir).mapError .pattern

end Preparation

def BuildOptions.prepare (o : BuildOptions) (t : FileTree) (cwd : Path) (tools : Tools) (host : Host) :
    Except PreparationError BuildContext := do
  let profile ← Preparation.target o.target host
  let sources := Discovery.sources t o.inputs cwd
  let linkType ← Preparation.linkType t o.linkType sources
  let policy := Policy.resolve { o.flags with linkType } profile
  let libDirs ← (Discovery.libraryDirs t tools profile).mapError .library
  let output := o.output.getD (Layout.defaultOutput (Layout.outputStem sources cwd) profile.os linkType)
  let references ← Preparation.references t o.references policy.stdlib tools
  let runtimeReferences ← (Discovery.runtimeReferences t libDirs policy.stdlib).mapError .pattern
  return {
    profile, policy, tools
    paths := BuildPaths.ofOutput output profile linkType o.map o.analyseSize
    libDirs, sources, references, runtimeReferences
    defines := o.defines
    langVersion := o.langVersion
    ldflags := o.ldflags
    extraInputs := o.extraInputs }

def BuildOptions.linkPlan (o : BuildOptions) (t : FileTree) (cwd : Path) (tools : Tools) (host : Host) :
    Except PreparationError Command :=
  (o.prepare t cwd tools host).map (·.linkCommand)

def IlOptions.request (o : IlOptions) (t : FileTree) (cwd : Path) (tools : Tools) (host : Host) :
    Except PreparationError FrontEndRequest := do
  let profile ← Preparation.target o.target host
  let sources := Discovery.sources t o.inputs cwd
  if sources = [] then throw (.noInputs cwd)
  let linkType ← Preparation.linkType t o.linkType sources
  let references ← Preparation.references t o.references o.stdlib tools
  return {
    sources, references
    defines := profile.implicitDefines ++ o.defines
    langVersion := o.langVersion
    outputKind := linkType
    debugInfo := !o.noDebugInfo
    deterministic := o.deterministic
    optimize := o.optimize
    output := o.output.getD (Layout.defaultIl (Layout.outputStem sources cwd) linkType) }

end NativeBuild
