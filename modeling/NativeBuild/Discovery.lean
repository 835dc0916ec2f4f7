import NativeBuild.Files.Glob
import NativeBuild.Layout
import NativeBuild.Source.EntryPoint
import NativeBuild.Tools

namespace NativeBuild.Discovery

def isCompanion (name : String) : Bool := ['.', '_'].isPrefixOf name.toList

def sources (t : FileTree) (explicit : List Path) (cwd : Path) : List Path :=
  if explicit = [] then t.walk cwd "cs" isCompanion else explicit

def excludedReferences : List String :=
  ["zerolib.dll", "KernelTraceControl.dll", "KernelTraceControl.Win61.dll", "msdia140.dll"]

def references (t : FileTree) (user : List Path) (stdlib : StandardLibrary) (dir : Path) :
    Except Glob.BadPattern (List Path) :=
  match stdlib with
  | .none => .ok user
  | .zero => .ok (user ++ [dir.child "zerolib.dll"])
  | .dotnet => do
    let found ← Glob.filesIn t dir "*.dll"
    return user ++ found.filter (fun p => !excludedReferences.contains (p.fileName?.getD ""))

def runtimeMask : StandardLibrary → Option String
  | .none => none
  | .dotnet => some "*.dll"
  | .zero => some "zerolib.dll"

def isDiagnosticsAssembly (name : String) : Bool := "System.Diagnostics".toList.isPrefixOf name.toList

def addAssemblies (known : OrderedMap String Path) (files : List Path) : OrderedMap String Path :=
  files.foldl (fun m p =>
    match p.fileStem? with
    | some name => if isDiagnosticsAssembly name then m else m.insertIfNew name p
    | none => m) known

def addDirectories (t : FileTree) (mask : String) (known : OrderedMap String Path) :
    List Path → Except Glob.BadPattern (OrderedMap String Path)
  | [] => .ok known
  | dir :: dirs => do addDirectories t mask (addAssemblies known (← Glob.filesIn t dir mask)) dirs

def runtimeReferences (t : FileTree) (dirs : List Path) (stdlib : StandardLibrary) :
    Except Glob.BadPattern (OrderedMap String Path) :=
  match runtimeMask stdlib with
  | none => .ok ∅
  | some mask => addDirectories t mask ∅ dirs

structure MissingLibraryDirectory where
  dir : Path
  deriving DecidableEq, Repr

def MissingLibraryDirectory.message (e : MissingLibraryDirectory) : String :=
  "Directory '" ++ e.dir.text ++ "' doesn't exist."

def libraryDirs (t : FileTree) (tools : Tools) (profile : Profile) :
    Except MissingLibraryDirectory (List Path) :=
  match tools.libraryOverride with
  | some dirs => .ok dirs
  | none =>
    let dirs := Layout.libraryDirs tools.home profile
    match dirs with
    | first :: _ => if t.isDirectory first then .ok dirs else .error ⟨first⟩
    | [] => .ok dirs

def linkType (t : FileTree) : List Path → Except FileFailure LinkType
  | [] => .ok .sharedLibrary
  | p :: ps =>
    match t.readText p with
    | .error e => .error ⟨"failed to read " ++ p.text, e⟩
    | .ok text => if Source.declaresEntryPoint text then .ok .executable else linkType t ps

end NativeBuild.Discovery
