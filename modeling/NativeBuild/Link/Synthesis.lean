import NativeBuild.Link.Elf
import NativeBuild.Link.Pe

namespace NativeBuild.LinkRequest

def args (r : LinkRequest) : List String := if r.profile.os.isPe then r.peArgs else r.elfArgs

def command (r : LinkRequest) : Command := ⟨r.linker, r.args⟩

end NativeBuild.LinkRequest
