import NativeBuild.Command
import NativeBuild.Files.Tree
import NativeBuild.Files.Error

namespace NativeBuild

structure Output where
  out : List UInt8 := []
  err : List UInt8 := []
  deriving DecidableEq, Repr, Inhabited

def Output.append (a b : Output) : Output := ⟨a.out ++ b.out, a.err ++ b.err⟩

instance : Append Output := ⟨Output.append⟩

inductive Ending where
  | exited (code : Nat)
  | killed (signal : Nat)
  deriving DecidableEq, Repr

def Ending.code : Ending → Nat
  | exited code => code
  | killed _ => 1

structure ToolRun where
  ending : Ending
  files : FileTree
  output : Output := {}

def ToolRun.succeeded (r : ToolRun) : Bool := r.ending == .exited 0

structure Machine where
  start : FileTree → Command → Except FileError ToolRun

end NativeBuild
