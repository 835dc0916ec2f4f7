import NativeBuild.Build.Stage
import NativeBuild.Codegen.Request
import NativeBuild.FrontEnd
import NativeBuild.Link.Synthesis
import NativeBuild.PostLink

namespace NativeBuild

structure BuildContext where
  profile : Profile
  policy : Policy
  tools : Tools
  paths : BuildPaths
  libDirs : List Path
  sources : List Path
  references : List Path
  runtimeReferences : OrderedMap String Path
  defines : List String
  langVersion : Option String
  ldflags : List String
  extraInputs : List String
  deriving DecidableEq, Repr

namespace BuildContext

def linkRequest (c : BuildContext) : LinkRequest where
  profile := c.profile
  policy := c.policy
  linker := c.tools.ld
  object := c.paths.object
  output := c.paths.output
  libDirs := c.libDirs
  vendorDir := c.tools.zkvmDir
  vendorSimDir := c.tools.zkvmSimDir
  exports := c.paths.exports
  ldflags := c.ldflags
  extraInputs := c.extraInputs

def linkCommand (c : BuildContext) : Command := c.linkRequest.command

def frontEndRequest (c : BuildContext) (output : Path) : FrontEndRequest where
  sources := c.sources
  references := c.references
  defines := c.profile.implicitDefines ++ c.defines
  langVersion := c.langVersion
  outputKind := c.policy.linkType
  debugInfo := c.policy.debugInfo
  deterministic := c.policy.deterministic
  optimize := c.policy.optimization != .none
  output

def ilName (c : BuildContext) : String :=
  c.paths.output.fileStem?.getD "out" ++ (if c.policy.linkType.isExecutable then ".exe" else ".dll")

def codegenRequest (c : BuildContext) (il : Path) : CodegenRequest where
  il
  home := c.tools.home
  references := c.runtimeReferences
  profile := c.profile
  policy := c.policy
  object := c.paths.object
  map := c.paths.map
  sizeAnalysis := c.paths.sizeAnalysis

def primaryDir (c : BuildContext) : Path := c.libDirs.headD ⟨""⟩

def startupObjects (c : BuildContext) : List Path :=
  if c.profile.libc.isZkvm && c.policy.linkType.isExecutable then
    [(Layout.startupDir c.profile.libc c.primaryDir c.tools.zkvmDir).child "crt1.o",
      c.primaryDir.child "crti.o"]
  else []

def patchTargets (c : BuildContext) : List Path := c.paths.object :: c.startupObjects

def postLinkSteps (c : BuildContext) : PostLinkSteps :=
  PostLinkSteps.plan c.profile c.policy c.tools c.paths

def links (c : BuildContext) : Bool := !c.policy.noLink

def runs (c : BuildContext) : Stage → Bool
  | .frontEndCompile | .codegen | .objectEmit => true
  | .wholeProgramScan => c.policy.scans
  | .platformPatch => c.links && c.profile.arch.needsAbiPatch
  | .link => c.links
  | .postLinkFixups => c.links && !c.postLinkSteps.isEmpty

end BuildContext

end NativeBuild
