import NativeBuild.Layout

namespace NativeBuild

structure CodegenRequest where
  il : Path
  home : Path
  references : OrderedMap String Path
  profile : Profile
  policy : Policy
  object : Path
  map : Option Path
  sizeAnalysis : Option SizeAnalysis
  deriving DecidableEq, Repr

namespace CodegenRequest

def optimizationArg : Optimization → List String
  | .none => []
  | .size => ["--Os"]
  | .speed => ["--Ot"]
  | .blended => ["-O"]

def stdlibArg : StandardLibrary → List String
  | .dotnet => []
  | .none => ["--stdlib:none"]
  | .zero => ["--stdlib:zero"]

def switchArg (entry : String × Bool) : String :=
  "--feature:" ++ entry.1 ++ "=" ++ (if entry.2 then "true" else "false")

def sizeArgs (scans : Bool) (a : SizeAnalysis) : List String :=
  ["--mstat:" ++ a.sizes.text, "--dgmllog:" ++ a.codegenGraph.text] ++
  (if scans then ["--scandgmllog:" ++ a.scanGraph.text] else [])

def args (r : CodegenRequest) : List String :=
  ["-o:" ++ r.object.text, "--targetos:" ++ r.profile.os.name, "--targetarch:" ++ r.profile.arch.name] ++
  optimizationArg r.policy.optimization ++
  (if r.policy.foldsBodies then ["--methodbodyfolding"] else []) ++
  (if r.profile.isa = [] then [] else ["--instruction-set:" ++ String.intercalate "," r.profile.isa]) ++
  (if r.policy.debugInfo then ["-g"] else []) ++
  (if r.policy.linkType.isExecutable then [] else ["--nativelib"]) ++
  stdlibArg r.policy.stdlib ++
  (if r.policy.reflection then [] else ["--reflectiondata:none"]) ++
  (if r.policy.stackTraceData then ["--stacktracedata"] else []) ++
  (if r.policy.globalization then [] else ["--invariantglobalization"]) ++
  r.policy.featureSwitches.toList.map switchArg ++
  r.policy.directImports.map ("--directpinvoke:" ++ ·) ++
  r.policy.directImportLists.map (fun file => "--directpinvokelist:" ++ (r.home.child file).text) ++
  (r.map.map (fun p => "--map:" ++ p.text)).toList ++
  (r.sizeAnalysis.map (sizeArgs r.policy.scans)).getD []

def inputArgs (r : CodegenRequest) : List String :=
  r.il.text :: r.references.values.map (fun p => "-r:" ++ p.text)

end CodegenRequest

end NativeBuild
