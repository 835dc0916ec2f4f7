import NativeBuild.Link.Request

namespace NativeBuild.LinkRequest

def subsystem (r : LinkRequest) : List String :=
  if r.profile.os = .uefi then ["/subsystem:EFI_APPLICATION"]
  else
    match r.policy.linkType with
    | .executable => ["/subsystem:console"]
    | .windowedExecutable => ["/subsystem:windows"]
    | .sharedLibrary => []

def definitionFile (exports : Path) : String := "/def:" ++ exports.text

def peEntry (r : LinkRequest) : List String :=
  if r.profile.os = .uefi then ["/entry:EfiMain"]
  else if r.isShared then
    ["/dll"] ++
    (if r.usesDotnet then ["bootstrapperdll.obj"] else []) ++
    (r.exports.map definitionFile).toList
  else
    (if r.usesDotnet then ["/entry:wmainCRTStartup", "bootstrapper.obj"] else ["/entry:__managed__Main"]) ++
    (if r.policy.positionIndependent then [] else ["/fixed"])

def peRuntime (r : LinkRequest) : List String :=
  if r.usesDotnet then
    ["Runtime.WorkstationGC.lib", "System.IO.Compression.Native.Aot.lib",
      "System.Globalization.Native.Aot.lib"]
  else
    ["/merge:.modules=.rdata", "/merge:.managedcode=.text"] ++
    (if r.policy.stdlib = .zero ∧ r.profile.arch ≠ .x64 then ["zerolibnative.obj"] else [])

def systemLibraries : List String := [
  "advapi32.lib",
  "bcrypt.lib",
  "crypt32.lib",
  "iphlpapi.lib",
  "kernel32.lib",
  "mswsock.lib",
  "ncrypt.lib",
  "normaliz.lib",
  "ntdll.lib",
  "ole32.lib",
  "oleaut32.lib",
  "user32.lib",
  "version.lib",
  "ws2_32.lib",
  "shell32.lib",
  "Secur32.Lib"]

def universalCRuntime : List String :=
  ["conio", "convert", "environment", "filesystem", "heap", "locale", "multibyte", "math", "process",
    "runtime", "stdio", "string", "time", "utility"].map
    (fun part => "api-ms-win-crt-" ++ part ++ "-l1-1-0.lib")

def peSystem (r : LinkRequest) : List String :=
  if r.profile.os = .windows then
    (if r.profile.arch = .x86 then [] else ["sokol.lib"]) ++
    systemLibraries ++
    (if r.profile.libc = .none then [] else "shcrt.lib" :: universalCRuntime)
  else []

def peHead (r : LinkRequest) : List String :=
  ["-flavor", "link", r.object.text, "/out:" ++ r.output.text] ++
  (if r.policy.deterministic then ["/Brepro"] else []) ++
  r.libDirs.map ("/libpath:" ++ ·.text) ++
  r.subsystem ++
  r.peEntry ++
  ["/incremental:no"] ++
  (if r.policy.debugInfo then ["/debug"] else []) ++
  r.peRuntime ++
  r.peSystem ++
  ["/opt:ref,icf", "/nodefaultlib:libcpmt.lib"]

def peArgs (r : LinkRequest) : List String := r.peHead ++ r.ldflags

end NativeBuild.LinkRequest
