import NativeBuild.Link.Synthesis

namespace NativeBuild.LinkRequest

variable {r : LinkRequest} {holds : String → Prop}

theorem forall_mem_ite {α : Type} {holds : α → Prop} {p : Prop} [Decidable p] {xs ys : List α}
    (hxs : ∀ x ∈ xs, holds x) (hys : ∀ y ∈ ys, holds y) : ∀ x ∈ if p then xs else ys, holds x := by
  split
  · exact hxs
  · exact hys

theorem forall_mem_elfKind (hfile : ∀ file ∈ ["libbootstrapperdll.o", "libbootstrapper.o"], holds (r.primary file))
    (hword : ∀ word ∈ ["-shared", "-pie"], holds word)
    (hexports : r.isShared = true → ∀ p, r.exports = some p → holds (versionScript p)) :
    ∀ token ∈ r.elfKind, holds token := by
  have hboot {file : String} (h : file ∈ ["libbootstrapperdll.o", "libbootstrapper.o"]) :
      ∀ token ∈ (if r.usesDotnet then [r.primary file] else []), holds token :=
    forall_mem_ite (List.forall_mem_singleton.mpr (hfile file h)) (List.forall_mem_nil _)
  have hshape {word : String} (h : word ∈ ["-shared", "-pie"]) : ∀ token ∈ [word], holds token :=
    List.forall_mem_singleton.mpr (hword word h)
  rw [elfKind]
  split
  · next hshared =>
    simp only [List.forall_mem_append]
    refine ⟨⟨hboot (by decide), hshape (by decide)⟩, ?_⟩
    intro token ht
    obtain ⟨p, hlisted, rfl⟩ := Option.map_eq_some_iff.mp (Option.mem_toList.mp ht)
    exact hexports hshared p hlisted
  · rw [List.forall_mem_append]
    exact ⟨hboot (by decide), forall_mem_ite (hshape (by decide)) (List.forall_mem_nil _)⟩

theorem forall_mem_elfRuntime
    (hword : ∀ word ∈ "-lSystem.Native" :: "-lSystem.Globalization.Native" :: dotnetLibraries, holds word)
    (hzero : holds (r.primary "libzerolibnative.o")) : ∀ token ∈ r.elfRuntime, holds token := by
  simp only [List.forall_mem_cons] at hword
  obtain ⟨hnative, hcultures, hdotnet⟩ := hword
  rw [elfRuntime]
  split
  · exact List.forall_mem_nil _
  · rw [List.forall_mem_append, List.forall_mem_cons]
    exact ⟨⟨hnative, hdotnet⟩, forall_mem_ite (List.forall_mem_nil _) (List.forall_mem_singleton.mpr hcultures)⟩
  · refine List.forall_mem_cons.mpr ⟨hnative, forall_mem_ite ?_ (List.forall_mem_nil _)⟩
    exact List.forall_mem_singleton.mpr hzero

theorem groupSymbols_sublist {g : WrapGroup} {libc : Libc} :
    (g.symbolsFor libc).Sublist (g.symbols ++ g.deviceSymbols) := by
  rw [WrapGroup.symbolsFor]
  split
  · exact List.Sublist.refl _
  · rw [List.append_nil]
    exact List.sublist_append_left _ _

theorem forall_mem_wrapGroups
    (hwrap : ∀ g ∈ WrapGroup.all, ∀ symbol ∈ g.symbols ++ g.deviceSymbols, holds ("--wrap=" ++ symbol))
    (hobject : ∀ g ∈ WrapGroup.all, ∀ object ∈ g.objects, holds (r.vendor object)) :
    ∀ token ∈ WrapGroup.all.flatMap (·.tokens r), holds token := by
  intro token ht
  obtain ⟨g, hg, ht⟩ := List.mem_flatMap.mp ht
  obtain ht | ht := List.mem_append.mp ht
  · obtain ⟨symbol, hsymbol, rfl⟩ := List.mem_map.mp ht
    exact hwrap g hg symbol (groupSymbols_sublist.subset hsymbol)
  · obtain ⟨object, hlisted, rfl⟩ := List.mem_map.mp ht
    exact hobject g hg object hlisted

theorem forall_mem_zkvmBlock (hscript : holds ("-T" ++ r.memoryScript.text))
    (hword : ∀ word ∈ ["--whole-archive", "--no-whole-archive"], holds word)
    (hfile : ∀ file ∈ ["entrypoint.o", "nofp.o", "ubootstrap.o", "stdcppshim.o"], holds (r.vendor file))
    (hgroups : ∀ token ∈ WrapGroup.all.flatMap (·.tokens r), holds token) : ∀ token ∈ r.zkvmBlock, holds token := by
  simp only [List.forall_mem_cons, List.not_mem_nil, false_implies, implies_true, and_true] at hword hfile
  obtain ⟨hopen, hclose⟩ := hword
  obtain ⟨hentry, hnofp, hbootstrap, hshim⟩ := hfile
  rw [zkvmBlock]
  simp only [List.forall_mem_append, List.forall_mem_cons, List.not_mem_nil, false_implies, implies_true, and_true]
  exact ⟨⟨⟨⟨hscript, hentry, hnofp⟩, hopen, hbootstrap, hshim⟩, hgroups⟩, hclose⟩

def elfWords : List String := [
  "-flavor", "ld", "-z", "now", "relro", "noexecstack", "--hash-style=gnu", "--eh-frame-hdr", "nostart-stop-gc",
  "-EL", "--fix-cortex-a53-843419", "--warn-shared-textrel", "max-page-size=4096", "--enable-new-dtags", "-static",
  "-dynamic-linker", "/system/bin/linker64", "/lib/ld-linux-aarch64.so.1", "/lib/ld-linux-riscv64-lp64d.so.1",
  "/lib64/ld-linux-x86-64.so.2", "--defsym=main=__managed__Main", "-o", "--as-needed", "--gc-sections", "-rpath",
  "$ORIGIN", "-shared", "-pie", "-lSystem.Native", "-lSystem.Globalization.Native", "-ldl", "-lm", "-lz",
  "--discard-all", "-lc", "-lgcc", "-lrt", "-lgcc_s", "--no-as-needed", "-lpthread", "--whole-archive",
  "--no-whole-archive"] ++ dotnetLibraries

def primaryFiles : List String := [
  "crtbegin_so.o", "crtbegin_dynamic.o", "crt1.o", "crti.o", "Scrt1.o", "crtbeginS.o", "libbootstrapperdll.o",
  "libbootstrapper.o", "libzerolibnative.o", "libc.a", "crtend_so.o", "crtend_android.o", "crtn.o", "crtendS.o",
  "nofp.o"]

def vendorFiles : List String :=
  ["crt1.o", "entrypoint.o", "nofp.o", "ubootstrap.o", "stdcppshim.o"] ++ WrapGroup.all.flatMap (·.objects)

inductive ElfToken (r : LinkRequest) : String → Prop
  | word {token : String} (listed : token ∈ elfWords) : ElfToken r token
  | primary {file : String} (listed : file ∈ primaryFiles) : ElfToken r (r.primary file)
  | vendor {file : String} (listed : file ∈ vendorFiles) : ElfToken r (r.vendor file)
  | libraryDir {dir : Path} (listed : dir ∈ r.libDirs) : ElfToken r ("-L" ++ dir.text)
  | script : ElfToken r ("-T" ++ r.memoryScript.text)
  | wrap (symbol : String) : ElfToken r ("--wrap=" ++ symbol)
  | object : ElfToken r r.object.text
  | output : ElfToken r r.output.text
  | exports {p : Path} (shared : r.isShared = true) (listed : r.exports = some p) : ElfToken r (versionScript p)
  | input {input : String} (listed : input ∈ r.extraInputs) : ElfToken r (r.expandInput input)
  | flag {flag : String} (listed : flag ∈ r.ldflags) : ElfToken r flag

theorem elfToken_words {tokens : List String} (h : tokens ⊆ elfWords) : ∀ token ∈ tokens, r.ElfToken token :=
  fun _ ht => .word (h ht)

theorem elfToken_options : ∀ token ∈ r.elfOptions, r.ElfToken token := by
  have hdirs : ∀ token ∈ r.libDirs.map ("-L" ++ ·.text), r.ElfToken token := by
    intro token ht
    obtain ⟨dir, hdir, rfl⟩ := List.mem_map.mp ht
    exact .libraryDir hdir
  rw [elfOptions]
  simp only [List.forall_mem_append]
  refine ⟨⟨⟨⟨⟨?_, hdirs⟩, ?_⟩, ?_⟩, ?_⟩, ?_⟩
  · exact elfToken_words (by decide)
  · exact elfToken_words (by decide)
  · exact forall_mem_ite (elfToken_words (by decide)) (List.forall_mem_nil _)
  · exact forall_mem_ite (elfToken_words (by decide)) (List.forall_mem_nil _)
  · exact forall_mem_ite (elfToken_words (by decide)) (List.forall_mem_nil _)

theorem elfToken_dynamicLinker (arch : Arch) : r.ElfToken (dynamicLinker arch) := by
  cases arch <;> exact .word (by decide)

theorem elfToken_startup : ∀ token ∈ r.elfStartup, r.ElfToken token := by
  have hbionic : ∀ token ∈ ["-dynamic-linker", "/system/bin/linker64", r.primary "crtbegin_dynamic.o"],
      r.ElfToken token := by
    simp only [List.forall_mem_cons, List.not_mem_nil, false_implies, implies_true, and_true]
    exact ⟨.word (by decide), .word (by decide), .primary (by decide)⟩
  have hstatic : ∀ token ∈ [if r.profile.libc.isZkvm then r.vendor "crt1.o" else r.primary "crt1.o",
      r.primary "crti.o"], r.ElfToken token := by
    simp only [List.forall_mem_cons, List.not_mem_nil, false_implies, implies_true, and_true]
    refine ⟨?_, .primary (by decide)⟩
    split
    · exact .vendor (by decide +kernel)
    · exact .primary (by decide)
  have hhosted : ∀ token ∈ ["-dynamic-linker", dynamicLinker r.profile.arch, r.primary "Scrt1.o"],
      r.ElfToken token := by
    simp only [List.forall_mem_cons, List.not_mem_nil, false_implies, implies_true, and_true]
    exact ⟨.word (by decide), elfToken_dynamicLinker _, .primary (by decide)⟩
  rw [elfStartup]
  refine forall_mem_ite ?_ (List.forall_mem_append.mpr ⟨?_, ?_⟩)
  · exact forall_mem_ite (List.forall_mem_singleton.mpr (.primary (by decide))) (List.forall_mem_nil _)
  · exact forall_mem_ite hbionic (forall_mem_ite hstatic hhosted)
  · exact forall_mem_ite (List.forall_mem_nil _) (elfToken_words (by decide))

theorem elfToken_program : ∀ token ∈ r.elfProgram, r.ElfToken token := by
  rw [elfProgram]
  simp only [List.forall_mem_append]
  refine ⟨⟨?_, forall_mem_ite ?_ (List.forall_mem_nil _)⟩, ?_⟩
  · exact List.forall_mem_cons.mpr ⟨.word (by decide), List.forall_mem_singleton.mpr .output⟩
  · exact List.forall_mem_cons.mpr ⟨.primary (by decide), List.forall_mem_singleton.mpr (.primary (by decide))⟩
  · exact List.forall_mem_cons.mpr ⟨.object, elfToken_words (by decide)⟩

theorem elfToken_primary {files : List String} (h : files ⊆ primaryFiles) :
    ∀ file ∈ files, r.ElfToken (r.primary file) := fun _ hfile => .primary (h hfile)

theorem elfToken_kind : ∀ token ∈ r.elfKind, r.ElfToken token :=
  forall_mem_elfKind (elfToken_primary (by decide)) (elfToken_words (by decide)) (fun hshared _ => .exports hshared)

theorem elfToken_runtime : ∀ token ∈ r.elfRuntime, r.ElfToken token :=
  forall_mem_elfRuntime (elfToken_words (by decide)) (.primary (by decide))

theorem elfToken_cLibrary : ∀ token ∈ r.elfCLibrary, r.ElfToken token := by
  rw [elfCLibrary]
  refine forall_mem_ite (List.forall_mem_singleton.mpr (.primary (by decide))) (List.forall_mem_append.mpr ⟨?_, ?_⟩)
  · exact elfToken_words (by decide)
  · refine forall_mem_ite (List.forall_mem_append.mpr ⟨?_, ?_⟩) (List.forall_mem_nil _)
    · exact elfToken_words (by decide)
    · exact forall_mem_ite (elfToken_words (by decide)) (List.forall_mem_nil _)

theorem elfToken_end : ∀ token ∈ r.elfEnd, r.ElfToken token := by
  rw [elfEnd]
  refine forall_mem_ite (List.forall_mem_singleton.mpr ?_) (forall_mem_ite ?_ ?_)
  · split <;> exact .primary (by decide)
  · exact List.forall_mem_singleton.mpr (.primary (by decide))
  · exact List.forall_mem_cons.mpr ⟨.primary (by decide), List.forall_mem_singleton.mpr (.primary (by decide))⟩

theorem elfToken_head : ∀ token ∈ r.elfHead, r.ElfToken token := by
  rw [elfHead]
  simp only [List.forall_mem_append]
  exact ⟨⟨⟨⟨⟨⟨⟨elfToken_options, elfToken_startup⟩, elfToken_program⟩, elfToken_kind⟩, elfToken_runtime⟩,
    elfToken_words (by decide)⟩, elfToken_cLibrary⟩, elfToken_end⟩

theorem elfToken_zkvmBlock : ∀ token ∈ r.zkvmBlock, r.ElfToken token := by
  apply forall_mem_zkvmBlock
  · exact .script
  · exact elfToken_words (by decide)
  · exact fun file hfile => .vendor (List.mem_append_left _ (List.mem_cons_of_mem _ hfile))
  · apply forall_mem_wrapGroups
    · exact fun _ _ symbol _ => .wrap symbol
    · exact fun g hg object hlisted => .vendor (List.mem_append_right _ (List.mem_flatMap.mpr ⟨g, hg, hlisted⟩))

theorem elfToken_tail : ∀ token ∈ r.elfTail, r.ElfToken token := by
  rw [elfTail, List.forall_mem_append]
  refine ⟨forall_mem_ite ?_ (List.forall_mem_nil _), forall_mem_ite elfToken_zkvmBlock (List.forall_mem_nil _)⟩
  exact List.forall_mem_singleton.mpr (.primary (by decide))

theorem elfToken_args : ∀ token ∈ r.elfArgs, r.ElfToken token := by
  rw [elfArgs]
  simp only [List.forall_mem_append]
  refine ⟨⟨⟨elfToken_head, ?_⟩, elfToken_tail⟩, fun token ht => .flag ht⟩
  intro token ht
  obtain ⟨input, hinput, rfl⟩ := List.mem_map.mp ht
  exact .input hinput

def peWords : List String := [
  "-flavor", "link", "/Brepro", "/subsystem:EFI_APPLICATION", "/subsystem:console", "/subsystem:windows",
  "/entry:EfiMain", "/dll", "bootstrapperdll.obj", "/entry:wmainCRTStartup", "bootstrapper.obj",
  "/entry:__managed__Main", "/fixed", "/incremental:no", "/debug", "Runtime.WorkstationGC.lib",
  "System.IO.Compression.Native.Aot.lib", "System.Globalization.Native.Aot.lib", "/merge:.modules=.rdata",
  "/merge:.managedcode=.text", "zerolibnative.obj", "sokol.lib", "shcrt.lib", "/opt:ref,icf",
  "/nodefaultlib:libcpmt.lib"] ++ systemLibraries ++ universalCRuntime

inductive PeToken (r : LinkRequest) : String → Prop
  | word {token : String} (listed : token ∈ peWords) : PeToken r token
  | object : PeToken r r.object.text
  | output : PeToken r ("/out:" ++ r.output.text)
  | libraryDir {dir : Path} (listed : dir ∈ r.libDirs) : PeToken r ("/libpath:" ++ dir.text)
  | exports {p : Path} (image : r.profile.os ≠ .uefi) (shared : r.isShared = true) (listed : r.exports = some p) :
      PeToken r (definitionFile p)
  | flag {flag : String} (listed : flag ∈ r.ldflags) : PeToken r flag

theorem peToken_words {tokens : List String} (h : tokens ⊆ peWords) : ∀ token ∈ tokens, r.PeToken token :=
  fun _ ht => .word (h ht)

theorem peToken_subsystem : ∀ token ∈ r.subsystem, r.PeToken token := by
  rw [subsystem]
  split
  · exact peToken_words (by decide)
  · split <;> exact peToken_words (by decide)

theorem peToken_entry : ∀ token ∈ r.peEntry, r.PeToken token := by
  rw [peEntry]
  split
  · exact peToken_words (by decide)
  · next himage =>
    split
    · next hshared =>
      simp only [List.forall_mem_append]
      refine ⟨⟨peToken_words (by decide), forall_mem_ite (peToken_words (by decide)) (List.forall_mem_nil _)⟩, ?_⟩
      intro token ht
      obtain ⟨p, hexports, rfl⟩ := Option.map_eq_some_iff.mp (Option.mem_toList.mp ht)
      exact .exports himage hshared hexports
    · rw [List.forall_mem_append]
      exact ⟨forall_mem_ite (peToken_words (by decide)) (peToken_words (by decide)),
        forall_mem_ite (List.forall_mem_nil _) (peToken_words (by decide))⟩

theorem peToken_runtime : ∀ token ∈ r.peRuntime, r.PeToken token := by
  rw [peRuntime]
  refine forall_mem_ite (peToken_words (by decide)) (List.forall_mem_append.mpr ⟨peToken_words (by decide), ?_⟩)
  exact forall_mem_ite (peToken_words (by decide)) (List.forall_mem_nil _)

theorem peToken_system : ∀ token ∈ r.peSystem, r.PeToken token := by
  have hsystem : systemLibraries ⊆ peWords :=
    List.Subset.trans (List.subset_append_right _ _) (List.subset_append_left _ _)
  have hruntime : universalCRuntime ⊆ peWords := List.subset_append_right _ _
  rw [peSystem]
  refine forall_mem_ite ?_ (List.forall_mem_nil _)
  simp only [List.forall_mem_append]
  refine ⟨⟨forall_mem_ite (List.forall_mem_nil _) (peToken_words (by decide)), peToken_words hsystem⟩, ?_⟩
  exact forall_mem_ite (List.forall_mem_nil _)
    (List.forall_mem_cons.mpr ⟨.word (by decide), peToken_words hruntime⟩)

theorem peToken_args : ∀ token ∈ r.peArgs, r.PeToken token := by
  have hdirs : ∀ token ∈ r.libDirs.map ("/libpath:" ++ ·.text), r.PeToken token := by
    intro token ht
    obtain ⟨dir, hdir, rfl⟩ := List.mem_map.mp ht
    exact .libraryDir hdir
  have hbegin : ∀ token ∈ ["-flavor", "link", r.object.text, "/out:" ++ r.output.text], r.PeToken token := by
    simp only [List.forall_mem_cons, List.not_mem_nil, false_implies, implies_true, and_true]
    exact ⟨.word (by decide), .word (by decide), .object, .output⟩
  rw [peArgs, peHead]
  simp only [List.forall_mem_append]
  refine ⟨⟨⟨⟨⟨⟨⟨⟨⟨⟨hbegin, ?_⟩, hdirs⟩, peToken_subsystem⟩, peToken_entry⟩, ?_⟩, ?_⟩, peToken_runtime⟩,
    peToken_system⟩, ?_⟩, fun token ht => .flag ht⟩
  · exact forall_mem_ite (peToken_words (by decide)) (List.forall_mem_nil _)
  · exact peToken_words (by decide)
  · exact forall_mem_ite (peToken_words (by decide)) (List.forall_mem_nil _)
  · exact peToken_words (by decide)

end NativeBuild.LinkRequest
