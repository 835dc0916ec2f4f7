import NativeBuild.Path.Basic

namespace NativeBuild

structure Command where
  program : Path
  args : List String
  deriving DecidableEq, Repr, Inhabited

namespace Command

def line (c : Command) : String := String.intercalate " " (c.program.text :: c.args)

def toolName (c : Command) : String := c.program.fileName?.getD c.program.text

end Command

end NativeBuild
