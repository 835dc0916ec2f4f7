import NativeBuild.CommandLine.Perform
import NativeBuild.Files.Changes
import NativeBuild.Script.Start

/-!
The program. The files that a call works on are named on standard input, one on a line; a name that ends
in a separator is a directory. The call is done on those files, and the files that it changed are written.
-/

namespace NativeBuild.Main

def placeOf (text : String) : Place := (Path.mk text).steps

def mayExecute (bytes : List UInt8) : Bool := bytes.take 2 == [35, 33]

def makeWay (t : FileTree) (place : Place) : FileTree :=
  (List.range place.length).foldl (fun t n => t.set (place.take n) .directory) t

def load (cwd : Place) (t : FileTree) (name : String) : IO FileTree := do
  let place := if name.startsWith "/" then placeOf name else cwd ++ placeOf name
  let t := makeWay t place
  if name.endsWith "/" then return t.set place .directory
  else
    let bytes ← IO.FS.readBinFile name
    return t.set place (.file bytes.toList (mayExecute bytes.toList))

partial def readLines (input : IO.FS.Stream) (lines : List String) : IO (List String) := do
  let line ← input.getLine
  if line.isEmpty then return lines.reverse
  readLines input (String.ofList (Text.trimEnd line.toList) :: lines)

def variableNames : List String :=
  ["PATH", "HOME", "XDG_CONFIG_HOME", "TMPDIR", "AOTBUILD_HOME", "AOTBUILD_LIB", "AOTBUILD_LD", "AOTBUILD_OBJCOPY",
    "AOTBUILD_FRONTEND", "AOTBUILD_CODEGEN"]

def readVariable (env : Environment) (name : String) : IO Environment := do
  return ((← IO.getEnv name).map (env.insert name)).getD env

def write (e : String × FileTree.Shown) : IO Unit :=
  match e.2 with
  | .file bytes => IO.FS.writeBinFile ("/" ++ e.1) ⟨bytes.toArray⟩
  | .emptyDirectory => IO.FS.createDirAll ("/" ++ e.1)

def store (before after : FileTree) : IO Unit := do
  let changes := FileTree.changes before after []
  changes.written.forM write
  changes.removed.forM (fun name => IO.FS.removeFile ("/" ++ name))

end NativeBuild.Main

open NativeBuild in
def main (args : List String) : IO UInt32 := do
  let env ← Main.variableNames.foldlM Main.readVariable ∅
  let cwd := Main.placeOf ((← IO.getEnv "PWD").getD "/")
  let names ← Main.readLines (← IO.getStdin) []
  let tree := Main.makeWay (FileTree.empty.set ["tmp"] .directory) cwd
  let tree ← names.foldlM (Main.load cwd) (tree.set cwd .directory)
  let tree := tree.enter cwd
  let r := Call.perform { files := tree, environment := env, machine := Machine.ofScripts env } args
  (← IO.getStdout).write ⟨r.output.out.toArray⟩
  (← IO.getStderr).write ⟨r.output.err.toArray⟩
  Main.store tree r.files
  return (r.exitCode % 256).toNat.toUInt32
