import NativeBuild.Link.Wrap
import NativeBuild.Text.Replace

namespace NativeBuild.LinkRequest

def isHosted (r : LinkRequest) : Bool := r.profile.libc != .bionic && !r.profile.libc.isStatic

def dynamicLinker : Arch → String
  | .arm64 => "/lib/ld-linux-aarch64.so.1"
  | .riscv64 => "/lib/ld-linux-riscv64-lp64d.so.1"
  | _ => "/lib64/ld-linux-x86-64.so.2"

def elfOptions (r : LinkRequest) : List String :=
  ["-flavor", "ld"] ++
  r.libDirs.map ("-L" ++ ·.text) ++
  ["-z", "now", "-z", "relro", "-z", "noexecstack", "--hash-style=gnu", "--eh-frame-hdr",
    "-z", "nostart-stop-gc"] ++
  (if r.profile.arch = .arm64 then ["-EL", "--fix-cortex-a53-843419"] else []) ++
  (if r.profile.libc = .bionic then
    ["--warn-shared-textrel", "-z", "max-page-size=4096", "--enable-new-dtags"] else []) ++
  (if r.profile.libc.isStatic then ["-static"] else [])

def elfStartup (r : LinkRequest) : List String :=
  if r.isShared then
    if r.profile.libc = .bionic then [r.primary "crtbegin_so.o"] else []
  else
    (if r.profile.libc = .bionic then
      ["-dynamic-linker", "/system/bin/linker64", r.primary "crtbegin_dynamic.o"]
    else if r.profile.libc.isStatic then
      [if r.profile.libc.isZkvm then r.vendor "crt1.o" else r.primary "crt1.o", r.primary "crti.o"]
    else
      ["-dynamic-linker", dynamicLinker r.profile.arch, r.primary "Scrt1.o"]) ++
    (if r.usesDotnet then [] else ["--defsym=main=__managed__Main"])

def elfProgram (r : LinkRequest) : List String :=
  ["-o", r.output.text] ++
  (if r.isHosted then [r.primary "crti.o", r.primary "crtbeginS.o"] else []) ++
  [r.object.text, "--as-needed", "--gc-sections", "-rpath", "$ORIGIN"]

def versionScript (exports : Path) : String := "--version-script=" ++ exports.text

def elfKind (r : LinkRequest) : List String :=
  if r.isShared then
    (if r.usesDotnet then [r.primary "libbootstrapperdll.o"] else []) ++
    ["-shared"] ++
    (r.exports.map versionScript).toList
  else
    (if r.usesDotnet then [r.primary "libbootstrapper.o"] else []) ++
    (if r.policy.positionIndependent then ["-pie"] else [])

def dotnetLibraries : List String := [
  "-latomic",
  "-leventpipe-disabled",
  "-laotminipal",
  "-lstandalonegc-disabled",
  "-lstdc++compat",
  "-lRuntime.WorkstationGC",
  "-lSystem.IO.Compression.Native",
  "-lSystem.Security.Cryptography.Native.OpenSsl"]

def elfRuntime (r : LinkRequest) : List String :=
  match r.policy.stdlib with
  | .none => []
  | .dotnet =>
    "-lSystem.Native" :: dotnetLibraries ++
    (if r.profile.libc = .bionic then [] else ["-lSystem.Globalization.Native"])
  | .zero =>
    "-lSystem.Native" ::
    (if r.profile.arch = .arm64 ∨ r.profile.arch = .riscv64 then [r.primary "libzerolibnative.o"] else [])

def commonLibraries : List String :=
  ["--as-needed", "-ldl", "-lm", "-lz", "-z", "relro", "-z", "now", "--discard-all", "--gc-sections"]

def elfCLibrary (r : LinkRequest) : List String :=
  if r.profile.libc.isStatic then [r.primary "libc.a"]
  else
    ["-lc", "-lgcc"] ++
    (if r.isHosted then
      ["-lrt", "--as-needed", "-lgcc_s", "--no-as-needed"] ++ (if r.policy.pthread then ["-lpthread"] else [])
    else [])

def elfEnd (r : LinkRequest) : List String :=
  if r.profile.libc = .bionic then
    [r.primary (if r.isShared then "crtend_so.o" else "crtend_android.o")]
  else if r.profile.libc.isStatic then [r.primary "crtn.o"]
  else [r.primary "crtendS.o", r.primary "crtn.o"]

def elfHead (r : LinkRequest) : List String :=
  r.elfOptions ++ r.elfStartup ++ r.elfProgram ++ r.elfKind ++ r.elfRuntime ++ commonLibraries ++
    r.elfCLibrary ++ r.elfEnd

def elfTail (r : LinkRequest) : List String :=
  (if r.profile.libc = .musl then [r.primary "nofp.o"] else []) ++
  (if r.profile.libc.isZkvm then r.zkvmBlock else [])

def libpathMark : String := "\x7blibpath\x7d"

def expandInput (r : LinkRequest) (input : String) : String :=
  String.ofList (Text.replaceAll libpathMark.toList r.primaryDir.chars input.toList)

def elfArgs (r : LinkRequest) : List String :=
  r.elfHead ++ r.extraInputs.map r.expandInput ++ r.elfTail ++ r.ldflags

end NativeBuild.LinkRequest
