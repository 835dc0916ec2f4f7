import NativeBuild.Diagnostic
import NativeBuild.Policy
import NativeBuild.Path.Basic

namespace NativeBuild

structure FrontEndRequest where
  sources : List Path
  references : List Path
  defines : List String
  langVersion : Option String
  outputKind : LinkType
  debugInfo : Bool
  deterministic : Bool
  optimize : Bool
  output : Path
  deriving DecidableEq, Repr

def Profile.implicitDefines (p : Profile) : List String := [p.arch.symbol, p.os.symbol, "AOTBUILD"]

namespace FrontEndRequest

def kindName : LinkType → String
  | .executable => "exe"
  | .windowedExecutable => "winexe"
  | .sharedLibrary => "library"

def args (r : FrontEndRequest) : List String :=
  ["-nologo", "-nostdlib", "-unsafe", "-out:" ++ r.output.text, "-target:" ++ kindName r.outputKind] ++
  (if r.defines = [] then [] else ["-define:" ++ String.intercalate ";" r.defines]) ++
  (r.langVersion.map ("-langversion:" ++ ·)).toList ++
  (if r.debugInfo then ["-debug:embedded"] else []) ++
  (if r.deterministic then ["-deterministic"] else []) ++
  (if r.optimize then ["-optimize+"] else []) ++
  r.references.map ("-r:" ++ ·.text) ++
  r.sources.map (·.text)

end FrontEndRequest

structure Il where
  path : Path
  warnings : List Diagnostic
  deriving DecidableEq, Repr

inductive FrontEndFailure where
  | diagnostics (found : List Diagnostic)
  | tool (reason : String)
  deriving DecidableEq, Repr

namespace FrontEndFailure

def errorCount (found : List Diagnostic) : Nat := (found.filter (·.isError)).length

def message : FrontEndFailure → String
  | diagnostics found =>
    "compilation failed with " ++ String.ofList (Text.decimal (errorCount found)) ++ " error(s)"
  | tool reason => "front-end compiler failed: " ++ reason

def shown : FrontEndFailure → List Diagnostic
  | diagnostics found => found
  | tool _ => []

end FrontEndFailure

end NativeBuild
