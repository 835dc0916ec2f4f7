import NativeBuild.Proofs.Link.ExportsOption

namespace NativeBuild.LinkRequest

def searchOptions (r : LinkRequest) : List String := r.libDirs.map ("-L" ++ ·.text)

def elfSettings (r : LinkRequest) : List String :=
  ["-z", "now", "-z", "relro", "-z", "noexecstack", "--hash-style=gnu", "--eh-frame-hdr",
    "-z", "nostart-stop-gc"] ++
  (if r.profile.arch = .arm64 then ["-EL", "--fix-cortex-a53-843419"] else []) ++
  (if r.profile.libc = .bionic then
    ["--warn-shared-textrel", "-z", "max-page-size=4096", "--enable-new-dtags"] else [])

def staticOption (r : LinkRequest) : List String := if r.profile.libc.isStatic then ["-static"] else []

def loaderOption (r : LinkRequest) : List String :=
  if r.isShared || r.profile.libc.isStatic then []
  else
    ["-dynamic-linker", if r.profile.libc = .bionic then "/system/bin/linker64" else dynamicLinker r.profile.arch]

def openingObjects (r : LinkRequest) : List String :=
  if r.profile.libc = .bionic then
    [r.primary (if r.isShared then "crtbegin_so.o" else "crtbegin_dynamic.o")]
  else if r.isShared then []
  else if r.profile.libc.isStatic then
    [if r.profile.libc.isZkvm then r.vendor "crt1.o" else r.primary "crt1.o", r.primary "crti.o"]
  else [r.primary "Scrt1.o"]

def entryOption (r : LinkRequest) : List String :=
  if r.isShared || r.usesDotnet then [] else ["--defsym=main=__managed__Main"]

def hostedObjects (r : LinkRequest) : List String :=
  if r.isHosted then [r.primary "crti.o", r.primary "crtbeginS.o"] else []

def elfBody (r : LinkRequest) : List String :=
  ["--as-needed", "--gc-sections", "-rpath", "$ORIGIN"] ++ r.unlisted.elfKind

def elfLibraries (r : LinkRequest) : List String := r.elfRuntime ++ commonLibraries

def elfOpening (r : LinkRequest) : List String :=
  r.elfSettings ++ r.staticOption ++ r.loaderOption ++ r.openingObjects ++ r.entryOption ++ ["-o"]

def elfFront (r : LinkRequest) : List String :=
  ["-flavor", "ld"] ++ r.searchOptions ++ r.elfOpening ++ [r.output.text] ++ r.hostedObjects ++ [r.object.text] ++
    r.elfBody ++ r.exportsOptions ++ r.elfLibraries ++ r.elfCLibrary ++ r.elfEnd

variable {r : LinkRequest}

theorem elfStartup_eq : r.elfStartup = r.loaderOption ++ r.openingObjects ++ r.entryOption := by
  rw [elfStartup, loaderOption, openingObjects, entryOption]
  cases hlibc : r.profile.libc <;> cases r.isShared <;> simp [Libc.isStatic, Libc.isZkvm]

theorem elfHead_eq (hpe : r.profile.os.isPe = false) : r.elfHead = r.elfFront := by
  have hoptions : r.elfOptions = ["-flavor", "ld"] ++ r.searchOptions ++ r.elfSettings ++ r.staticOption := by
    simp only [elfOptions, searchOptions, elfSettings, staticOption, List.append_assoc]
  have hprogram : r.elfProgram = ["-o", r.output.text] ++ r.hostedObjects ++
      [r.object.text, "--as-needed", "--gc-sections", "-rpath", "$ORIGIN"] := rfl
  rw [elfHead, hoptions, elfStartup_eq, hprogram, elfKind_eq hpe]
  simp only [elfFront, elfOpening, elfBody, elfLibraries, List.append_assoc, List.cons_append, List.nil_append]

theorem args_eq (hpe : r.profile.os.isPe = false) :
    r.args = r.elfFront ++ r.extraInputs.map r.expandInput ++ r.elfTail ++ r.ldflags := by
  rw [args, hpe, if_neg Bool.false_ne_true, elfArgs, elfHead_eq hpe]

def bareLinux (libc : Libc) (linkType : LinkType) : LinkRequest where
  profile := ⟨.linux, .riscv64, libc, []⟩
  policy := .resolve { linkType, stdlib := .none } ⟨.linux, .riscv64, libc, []⟩
  linker := ⟨"/bin/lld"⟩
  object := ⟨"/app.o"⟩
  output := ⟨"/app"⟩
  libDirs := [⟨"/lib"⟩]
  vendorDir := ⟨"/zisk"⟩
  vendorSimDir := ⟨"/sim"⟩
  exports := if linkType = .sharedLibrary then some ⟨"/app.txt"⟩ else none
  ldflags := []
  extraInputs := []

end NativeBuild.LinkRequest
