import NativeBuild.Command
import NativeBuild.Layout

namespace NativeBuild

structure LinkRequest where
  profile : Profile
  policy : Policy
  linker : Path
  object : Path
  output : Path
  libDirs : List Path
  vendorDir : Path
  vendorSimDir : Path
  exports : Option Path
  ldflags : List String
  extraInputs : List String
  deriving DecidableEq, Repr

namespace LinkRequest

def primaryDir (r : LinkRequest) : Path := r.libDirs.headD ⟨""⟩

def primary (r : LinkRequest) (file : String) : String := (r.primaryDir.child file).text

def vendor (r : LinkRequest) (file : String) : String := (r.vendorDir.child file).text

def isShared (r : LinkRequest) : Bool := r.policy.isShared

def usesDotnet (r : LinkRequest) : Bool := r.policy.stdlib == .dotnet

end LinkRequest

end NativeBuild
