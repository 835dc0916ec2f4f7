import NativeBuild.Proofs.Link.Parts
import NativeBuild.Proofs.Link.StartupObjects

namespace NativeBuild

def lastName (token : String) : List Char := (token.toList.reverse.takeWhile (· ≠ '/')).reverse

variable {words files : List String} {file token : String}

theorem lastName_of_plain (hplain : '/' ∉ token.toList) : lastName token = token.toList := by
  have hchars : ∀ c ∈ token.toList.reverse, decide (c ≠ '/') = true := by
    intro c hc
    rw [decide_eq_true_eq]
    exact fun hslash => hplain (hslash ▸ List.mem_reverse.mp hc)
  rw [lastName, List.takeWhile_eq_self_iff.mpr hchars, List.reverse_reverse]

theorem lastName_of_namesFile (hplain : '/' ∉ file.toList) (h : NamesFile file token) :
    lastName token = file.toList := by
  obtain rfl | ⟨front, hfront⟩ := h
  · exact lastName_of_plain hplain
  · have hchars : ∀ c ∈ file.toList.reverse, decide (c ≠ '/') = true := by
      intro c hc
      rw [decide_eq_true_eq]
      exact fun hslash => hplain (hslash ▸ List.mem_reverse.mp hc)
    rw [lastName, ← hfront, List.reverse_append, List.reverse_cons, List.append_assoc,
      List.takeWhile_append_of_pos hchars, List.singleton_append, List.takeWhile_cons_of_neg (by decide),
      List.append_nil, List.reverse_reverse]

theorem lastName_child (hplain : '/' ∉ file.toList) (base : Path) : lastName (base.child file).text = file.toList :=
  lastName_of_namesFile hplain (base.namesFile_child hplain)

theorem mem_child {c : Char} (h : c ∈ file.toList) (base : Path) : c ∈ (base.child file).text.toList :=
  (base.suffix_child file).subset h

theorem isPrefix_append (front rest : String) : front.toList <+: (front ++ rest).toList := by
  rewrite [String.toList_append]
  exact List.prefix_append _ _

/-- One of these words, or the path of one of these files in some directory. -/
inductive Drawn (words files : List String) : String → Prop
  | word {token : String} (listed : token ∈ words) : Drawn words files token
  | file {file : String} (listed : file ∈ files) (base : Path) : Drawn words files (base.child file).text

theorem Drawn.mono {words' files' : List String} (h : Drawn words files token) (hwords : words ⊆ words')
    (hfiles : files ⊆ files') : Drawn words' files' token := by
  cases h with
  | word listed => exact .word (hwords listed)
  | file listed base => exact .file (hfiles listed) base

theorem drawn_words {tokens : List String} (h : tokens ⊆ words) : ∀ token ∈ tokens, Drawn words files token :=
  fun _ ht => .word (h ht)

namespace LinkRequest

variable {r : LinkRequest}

theorem lastName_primary (hplain : '/' ∉ file.toList) : lastName (r.primary file) = file.toList :=
  lastName_child hplain r.primaryDir

theorem lastName_vendor (hplain : '/' ∉ file.toList) : lastName (r.vendor file) = file.toList :=
  lastName_child hplain r.vendorDir

theorem drawn_primary (h : file ∈ files) : ∀ token ∈ [r.primary file], Drawn words files token :=
  List.forall_mem_singleton.mpr (.file h r.primaryDir)

def plainTokens (r : LinkRequest) : List String :=
  ["-flavor", "ld"] ++ r.elfSettings ++ r.entryOption ++ ["-o"] ++ r.elfBody ++ r.elfLibraries

def placed (r : LinkRequest) : List String :=
  r.plainTokens ++ r.staticOption ++ r.loaderOption ++ r.openingObjects ++ r.hostedObjects ++ r.elfCLibrary ++ r.elfEnd ++
    r.elfTail

def pathOptions (r : LinkRequest) : List String := r.searchOptions ++ r.exportsOptions

def given (r : LinkRequest) : List String :=
  [r.output.text] ++ [r.object.text] ++ r.extraInputs.map r.expandInput ++ r.ldflags

theorem args_perm (hpe : r.profile.os.isPe = false) : r.args.Perm (r.placed ++ r.pathOptions ++ r.given) := by
  rw [args_eq hpe, List.perm_iff_count]
  intro token
  simp only [elfFront, elfOpening, placed, plainTokens, pathOptions, given, List.count_append]
  omega

def pathMarks : List String := ["-L", "--version-script="]

theorem eq_append_of_pathOption (hpe : r.profile.os.isPe = false) (h : token ∈ r.pathOptions) :
    ∃ mark ∈ pathMarks, ∃ rest, token = mark ++ rest := by
  rw [pathOptions, List.mem_append] at h
  obtain h | h := h
  · obtain ⟨dir, -, rfl⟩ := List.mem_map.mp h
    exact ⟨"-L", by decide, dir.text, rfl⟩
  · rw [exportsOptions] at h
    split at h
    · obtain ⟨p, -, rfl⟩ := Option.map_eq_some_iff.mp (Option.mem_toList.mp h)
      rw [exportsOption, hpe]
      exact ⟨"--version-script=", by decide, p.text, rfl⟩
    · cases h

def plainWords : List String := [
  "-flavor", "ld", "-z", "now", "relro", "noexecstack", "--hash-style=gnu", "--eh-frame-hdr", "nostart-stop-gc", "-EL",
  "--fix-cortex-a53-843419", "--warn-shared-textrel", "max-page-size=4096", "--enable-new-dtags", "-o",
  "--as-needed", "--gc-sections", "-rpath", "$ORIGIN", "-shared", "-pie",
  "--defsym=main=__managed__Main", "-lSystem.Native", "-lSystem.Globalization.Native", "-ldl", "-lm", "-lz",
  "--discard-all"] ++ dotnetLibraries

def plainFiles : List String := ["libbootstrapperdll.o", "libbootstrapper.o", "libzerolibnative.o"]

theorem drawn_settings : ∀ token ∈ r.elfSettings, Drawn plainWords plainFiles token := by
  rw [elfSettings]
  simp only [List.forall_mem_append]
  refine ⟨⟨?_, ?_⟩, ?_⟩
  · exact drawn_words (by decide)
  · exact forall_mem_ite (drawn_words (by decide)) (List.forall_mem_nil _)
  · exact forall_mem_ite (drawn_words (by decide)) (List.forall_mem_nil _)

theorem drawn_body : ∀ token ∈ r.elfBody, Drawn plainWords plainFiles token := by
  rw [elfBody, List.forall_mem_append]
  refine ⟨drawn_words (by decide), ?_⟩
  have hfiles : ["libbootstrapperdll.o", "libbootstrapper.o"] ⊆ plainFiles := by decide
  apply forall_mem_elfKind
  · exact fun file hfile => .file (hfiles hfile) r.primaryDir
  · exact drawn_words (by decide)
  · intro _ _ hnone
    cases hnone

theorem drawn_libraries : ∀ token ∈ r.elfLibraries, Drawn plainWords plainFiles token := by
  rw [elfLibraries, List.forall_mem_append]
  refine ⟨forall_mem_elfRuntime (drawn_words ?_) (.file (by decide) r.primaryDir), drawn_words (by decide)⟩
  have hdotnet : dotnetLibraries ⊆ plainWords := List.subset_append_right _ _
  exact List.cons_subset.mpr ⟨by decide, List.cons_subset.mpr ⟨by decide, hdotnet⟩⟩

theorem drawn_plainTokens : ∀ token ∈ r.plainTokens, Drawn plainWords plainFiles token := by
  have hentry : ∀ token ∈ r.entryOption, Drawn plainWords plainFiles token := by
    rw [entryOption]
    exact forall_mem_ite (List.forall_mem_nil _) (drawn_words (by decide))
  rw [plainTokens]
  simp only [List.forall_mem_append]
  exact ⟨⟨⟨⟨⟨drawn_words (by decide), drawn_settings⟩, hentry⟩, drawn_words (by decide)⟩, drawn_body⟩, drawn_libraries⟩

theorem drawn_staticOption : ∀ token ∈ r.staticOption, Drawn ["-static"] [] token := by
  rw [staticOption]
  exact forall_mem_ite (drawn_words (List.Subset.refl _)) (List.forall_mem_nil _)

def loaderWords : List String := [
  "-dynamic-linker", "/system/bin/linker64", "/lib/ld-linux-aarch64.so.1", "/lib/ld-linux-riscv64-lp64d.so.1",
  "/lib64/ld-linux-x86-64.so.2"]

theorem drawn_loader : ∀ token ∈ r.loaderOption, Drawn loaderWords [] token := by
  have hlinker : dynamicLinker r.profile.arch ∈ loaderWords := by
    cases r.profile.arch <;> decide
  rw [loaderOption]
  refine forall_mem_ite (List.forall_mem_nil _) (List.forall_mem_cons.mpr ⟨.word (by decide), ?_⟩)
  rw [List.forall_mem_singleton]
  split
  · exact .word (by decide)
  · exact .word hlinker

def openingFiles : List String :=
  ["crtbegin_so.o", "crtbegin_dynamic.o", "crt1.o", "crti.o", "Scrt1.o", "crtbeginS.o"]

theorem drawn_openingObjects : ∀ token ∈ r.openingObjects, Drawn [] openingFiles token := by
  have hfirst : Drawn [] openingFiles (if r.profile.libc.isZkvm then r.vendor "crt1.o" else r.primary "crt1.o") := by
    split
    · exact .file (by decide) r.vendorDir
    · exact .file (by decide) r.primaryDir
  rw [openingObjects]
  refine forall_mem_ite (List.forall_mem_singleton.mpr ?_) (forall_mem_ite (List.forall_mem_nil _) ?_)
  · split <;> exact .file (by decide) r.primaryDir
  · refine forall_mem_ite ?_ (drawn_primary (by decide))
    exact List.forall_mem_cons.mpr ⟨hfirst, drawn_primary (by decide)⟩

theorem drawn_hostedObjects : ∀ token ∈ r.hostedObjects, Drawn [] openingFiles token := by
  rw [hostedObjects]
  refine forall_mem_ite ?_ (List.forall_mem_nil _)
  exact List.forall_mem_cons.mpr ⟨.file (by decide) r.primaryDir, drawn_primary (by decide)⟩

def cLibraryWords : List String := ["-lc", "-lgcc", "-lrt", "--as-needed", "-lgcc_s", "--no-as-needed", "-lpthread"]

theorem drawn_cLibrary_of_dynamic (h : ¬ r.profile.libc.isStatic = true) :
    ∀ token ∈ r.elfCLibrary, Drawn cLibraryWords [] token := by
  rw [elfCLibrary, if_neg h]
  refine List.forall_mem_append.mpr ⟨drawn_words (by decide), ?_⟩
  refine forall_mem_ite (List.forall_mem_append.mpr ⟨drawn_words (by decide), ?_⟩) (List.forall_mem_nil _)
  exact forall_mem_ite (drawn_words (by decide)) (List.forall_mem_nil _)

theorem drawn_cLibrary : ∀ token ∈ r.elfCLibrary, Drawn cLibraryWords ["libc.a"] token := by
  by_cases hstatic : r.profile.libc.isStatic = true
  · rw [elfCLibrary, if_pos hstatic]
    exact drawn_primary (List.mem_singleton_self _)
  · intro token ht
    exact (drawn_cLibrary_of_dynamic hstatic token ht).mono (List.Subset.refl _) (List.nil_subset _)

def endFiles : List String := ["crtend_so.o", "crtend_android.o", "crtn.o", "crtendS.o"]

theorem drawn_end : ∀ token ∈ r.elfEnd, Drawn [] endFiles token := by
  rw [elfEnd]
  refine forall_mem_ite (List.forall_mem_singleton.mpr ?_) (forall_mem_ite (drawn_primary (by decide)) ?_)
  · split <;> exact .file (by decide) r.primaryDir
  · exact List.forall_mem_cons.mpr ⟨.file (by decide) r.primaryDir, drawn_primary (by decide)⟩

def wrapFlag (symbol : String) : String := "--wrap=" ++ symbol

def brackets : List String := ["--whole-archive", "--no-whole-archive"]

def tailFiles : List String :=
  ["nofp.o", "entrypoint.o", "ubootstrap.o", "stdcppshim.o"] ++ WrapGroup.all.flatMap (·.objects)

def wrappedSymbols : List String := WrapGroup.all.flatMap (fun g => g.symbols ++ g.deviceSymbols)

inductive TailToken (r : LinkRequest) : String → Prop
  | drawn {token : String} (origin : Drawn brackets tailFiles token) : TailToken r token
  | script : TailToken r ("-T" ++ r.memoryScript.text)
  | wrap {symbol : String} (listed : symbol ∈ wrappedSymbols) : TailToken r (wrapFlag symbol)

theorem mem_wrappedSymbols {g : WrapGroup} {libc : Libc} {symbol : String} (hg : g ∈ WrapGroup.all)
    (h : symbol ∈ g.symbolsFor libc) : symbol ∈ wrappedSymbols :=
  List.mem_flatMap.mpr ⟨g, hg, groupSymbols_sublist.subset h⟩

theorem tailToken_tail : ∀ token ∈ r.elfTail, r.TailToken token := by
  have hnofp : r.TailToken (r.primary "nofp.o") := .drawn (.file (by decide) r.primaryDir)
  have hfiles : ["entrypoint.o", "nofp.o", "ubootstrap.o", "stdcppshim.o"] ⊆ tailFiles := by decide
  rw [elfTail, List.forall_mem_append]
  refine ⟨forall_mem_ite (List.forall_mem_singleton.mpr hnofp) (List.forall_mem_nil _), ?_⟩
  refine forall_mem_ite (forall_mem_zkvmBlock .script ?_ ?_ (forall_mem_wrapGroups ?_ ?_)) (List.forall_mem_nil _)
  · exact fun word hword => .drawn (.word hword)
  · exact fun file hfile => .drawn (.file (hfiles hfile) r.vendorDir)
  · exact fun g hg symbol hlisted => .wrap (List.mem_flatMap.mpr ⟨g, hg, hlisted⟩)
  · intro g hg object hlisted
    exact .drawn (.file (List.mem_append_right _ (List.mem_flatMap.mpr ⟨g, hg, hlisted⟩)) r.vendorDir)

structure Identifier (name : String) : Prop where
  noSeparator : '/' ∉ name.toList
  noDot : '.' ∉ name.toList

theorem Identifier.of_chars {cs : List Char} (noSeparator : '/' ∉ cs) (noDot : '.' ∉ cs) :
    Identifier (String.ofList cs) := by
  constructor <;> rw [String.toList_ofList] <;> assumption

theorem identifier_of_wrapped : ∀ symbol ∈ wrappedSymbols, Identifier symbol := by
  -- the names are taken apart as literals: to compute their characters is slow
  have hgroups : ∀ g ∈ WrapGroup.all, ∀ symbol ∈ g.symbols ++ g.deviceSymbols, Identifier symbol := by
    simp only [WrapGroup.all, List.forall_mem_cons, List.forall_mem_append, List.not_mem_nil, false_implies,
      implies_true, and_true]
    repeat' apply And.intro
    all_goals exact .of_chars (by decide) (by decide)
  intro symbol hsymbol
  obtain ⟨g, hg, hsymbol⟩ := List.mem_flatMap.mp hsymbol
  exact hgroups g hg symbol hsymbol

theorem noDot_wrapFlag {symbol : String} (h : symbol ∈ wrappedSymbols) : '.' ∉ (wrapFlag symbol).toList := by
  rw [wrapFlag, String.toList_append, List.mem_append]
  exact not_or.mpr ⟨by decide, (identifier_of_wrapped symbol h).noDot⟩

end LinkRequest
end NativeBuild
