import NativeBuild.Proofs.Link.PlacedTokens

namespace NativeBuild.LinkRequest

def emitted (r : LinkRequest) : List String := r.placed ++ r.pathOptions

def linkageWords : List String :=
  ["-static", "-dynamic-linker", "-lc", "-lgcc", "-lgcc_s", "-lrt", "-lpthread"]

variable {r : LinkRequest} {words files : List String} {token word : String}

theorem drawn_not_linkageWord (h : Drawn words files token) (hwords : ∀ word ∈ words, word ∉ linkageWords)
    (hfiles : ∀ file ∈ files, '.' ∈ file.toList) : token ∉ linkageWords := by
  have hdot : ∀ word ∈ linkageWords, '.' ∉ word.toList := by decide
  cases h with
  | word listed => exact hwords token listed
  | file listed base => exact fun hword => hdot _ hword (mem_child (hfiles _ listed) base)

theorem append_not_linkageWord {mark : String} (rest : String)
    (hmark : ∀ word ∈ linkageWords, ¬ mark.toList <+: word.toList) : mark ++ rest ∉ linkageWords := by
  exact fun h => hmark _ h (isPrefix_append mark rest)

theorem tail_not_linkageWord (h : r.TailToken token) : token ∉ linkageWords := by
  cases h with
  | drawn origin => exact drawn_not_linkageWord origin (by decide) (by decide +kernel)
  | script => exact append_not_linkageWord _ (by decide)
  | wrap listed => exact append_not_linkageWord _ (by decide)

theorem pathOption_not_linkageWord (hpe : r.profile.os.isPe = false) (h : token ∈ r.pathOptions) :
    token ∉ linkageWords := by
  have hmarks : ∀ mark ∈ pathMarks, ∀ word ∈ linkageWords, ¬ mark.toList <+: word.toList := by decide
  obtain ⟨mark, hmark, rest, rfl⟩ := eq_append_of_pathOption hpe h
  exact append_not_linkageWord rest (hmarks mark hmark)

theorem mem_emitted_iff (hpe : r.profile.os.isPe = false) (hword : word ∈ linkageWords) :
    word ∈ r.emitted ↔ word ∈ r.staticOption ∨ word ∈ r.loaderOption ∨ word ∈ r.elfCLibrary := by
  have hplain : word ∉ r.plainTokens := fun h =>
    drawn_not_linkageWord (drawn_plainTokens word h) (by decide) (by decide) hword
  have hopening : word ∉ r.openingObjects := fun h =>
    drawn_not_linkageWord (drawn_openingObjects word h) (by decide) (by decide) hword
  have hhosted : word ∉ r.hostedObjects := fun h =>
    drawn_not_linkageWord (drawn_hostedObjects word h) (by decide) (by decide) hword
  have hends : word ∉ r.elfEnd := fun h => drawn_not_linkageWord (drawn_end word h) (by decide) (by decide) hword
  have htail : word ∉ r.elfTail := fun h => tail_not_linkageWord (tailToken_tail word h) hword
  have hoptions : word ∉ r.pathOptions := fun h => pathOption_not_linkageWord hpe h hword
  simp only [emitted, placed, List.mem_append, hplain, hopening, hhosted, hends, htail, hoptions, false_or, or_false,
    or_assoc]

theorem mem_staticOption_iff : word ∈ r.staticOption ↔ word = "-static" ∧ r.profile.libc.isStatic = true := by
  rw [staticOption]
  split <;> simp [*]

theorem mem_loaderOption_iff (hword : word ∈ linkageWords) : word ∈ r.loaderOption ↔
    word = "-dynamic-linker" ∧ r.isShared = false ∧ r.profile.libc.isStatic = false := by
  have hlisted : ∀ word ∈ loaderWords, word ∈ linkageWords → word = "-dynamic-linker" := by decide
  constructor
  · intro h
    have hname : word = "-dynamic-linker" := by
      cases drawn_loader word h with
      | word listed => exact hlisted word listed hword
      | file listed => cases listed
    rw [loaderOption] at h
    split at h
    · cases h
    · next hnot => exact ⟨hname, by simpa using hnot⟩
  · rintro ⟨rfl, hshared, hstatic⟩
    rw [loaderOption, hshared, hstatic]
    exact List.mem_cons_self

theorem elfCLibrary_of_static (h : r.profile.libc.isStatic = true) : r.elfCLibrary = [r.primary "libc.a"] := by
  rw [elfCLibrary, if_pos h]

theorem cLibrary_not_linkageWord (h : r.profile.libc.isStatic = true) : ∀ token ∈ r.elfCLibrary, token ∉ linkageWords := by
  rw [elfCLibrary_of_static h, List.forall_mem_singleton]
  exact drawn_not_linkageWord (.file (List.mem_singleton_self _) r.primaryDir) (List.forall_mem_nil _) (by decide)

def linkageOf (libc : Libc) : List String :=
  if libc.isStatic then ["-static"]
  else ["-lc", "-lgcc"] ++ (if libc = .bionic then [] else ["-lrt", "-lgcc_s"])

theorem mem_cLibrary_iff (hword : word ∈ linkageWords) (hthreads : word ≠ "-lpthread") :
    word ∈ r.elfCLibrary ↔ r.profile.libc.isStatic = false ∧ word ∈ linkageOf r.profile.libc := by
  cases hstatic : r.profile.libc.isStatic with
  | true =>
    have hnot : word ∉ r.elfCLibrary := fun h => cLibrary_not_linkageWord hstatic word h hword
    simp [hnot]
  | false =>
    have hneeded : word ≠ "--as-needed" := fun h => absurd (h ▸ hword) (by decide)
    have hunneeded : word ≠ "--no-as-needed" := fun h => absurd (h ▸ hword) (by decide)
    rw [elfCLibrary, isHosted, hstatic]
    cases hlibc : r.profile.libc <;> cases r.policy.pthread <;>
      simp [linkageOf, Libc.isStatic, Libc.isZkvm, hlibc, hneeded, hunneeded, hthreads] at hstatic ⊢

theorem mem_emitted_iff_linkageOf (hpe : r.profile.os.isPe = false)
    (hword : word ∈ ["-static", "-lc", "-lgcc", "-lgcc_s", "-lrt"]) :
    word ∈ r.emitted ↔ word ∈ linkageOf r.profile.libc := by
  have hlinkage : word ∈ linkageWords := by
    have hsubset : ["-static", "-lc", "-lgcc", "-lgcc_s", "-lrt"] ⊆ linkageWords := by decide
    exact hsubset hword
  have hloader : word ≠ "-dynamic-linker" := fun h => absurd (h ▸ hword) (by decide)
  have hthreads : word ≠ "-lpthread" := fun h => absurd (h ▸ hword) (by decide)
  rw [mem_emitted_iff hpe hlinkage, mem_staticOption_iff, mem_loaderOption_iff hlinkage,
    mem_cLibrary_iff hlinkage hthreads]
  cases r.profile.libc <;> simp [linkageOf, Libc.isStatic, Libc.isZkvm, hloader]

theorem loader_mem_emitted_iff (hpe : r.profile.os.isPe = false) :
    "-dynamic-linker" ∈ r.emitted ↔ r.isShared = false ∧ r.profile.libc.isStatic = false := by
  rw [mem_emitted_iff hpe (by decide), mem_staticOption_iff, mem_loaderOption_iff (by decide),
    mem_cLibrary_iff (by decide) (by decide)]
  cases r.profile.libc <;> simp [linkageOf, Libc.isStatic, Libc.isZkvm]

theorem threads_not_mem_emitted (hpe : r.profile.os.isPe = false) (h : r.profile.libc.isStatic = true) :
    "-lpthread" ∉ r.emitted := by
  have hlisted : "-lpthread" ∈ linkageWords := by decide
  rw [mem_emitted_iff hpe hlisted, mem_staticOption_iff, mem_loaderOption_iff hlisted]
  have hnot : "-lpthread" ∉ r.elfCLibrary := fun hmem => cLibrary_not_linkageWord h _ hmem hlisted
  simp [hnot]

def archives (r : LinkRequest) : List String := r.placed.filter (fun token => "libc.a".toList <:+ token.toList)

theorem drawn_not_archive (h : Drawn words files token) (hwords : ∀ word ∈ words, ¬ "libc.a".toList <:+ word.toList)
    (hfiles : ∀ file ∈ files, ¬ file.toList <:+ "libc.a".toList ∧ ¬ "libc.a".toList <:+ file.toList) :
    ¬ "libc.a".toList <:+ token.toList := by
  cases h with
  | word listed => exact hwords token listed
  | @file file listed base =>
    obtain ⟨hshort, hlong⟩ := hfiles file listed
    exact fun hends => (List.suffix_or_suffix_of_suffix (base.suffix_child file) hends).elim hshort hlong

theorem tail_not_archive (h : r.TailToken token) : ¬ "libc.a".toList <:+ token.toList := by
  cases h with
  | drawn origin => exact drawn_not_archive origin (by decide) (by decide +kernel)
  | script =>
    have hscript : "script.ld".toList <:+ ("-T" ++ r.memoryScript.text).toList := by
      rw [String.toList_append]
      exact (Path.suffix_child _ "script.ld").trans (List.suffix_append _ _)
    intro hends
    exact (List.suffix_or_suffix_of_suffix hscript hends).elim (by decide) (by decide)
  | wrap listed => exact fun hends => noDot_wrapFlag listed (hends.subset (by decide))

theorem filter_cLibrary : r.elfCLibrary.filter (fun token => "libc.a".toList <:+ token.toList) =
    if r.profile.libc.isStatic then [r.primary "libc.a"] else [] := by
  split
  · next hstatic =>
    rw [elfCLibrary_of_static hstatic, List.filter_eq_self, List.forall_mem_singleton]
    exact decide_eq_true (r.primaryDir.suffix_child "libc.a")
  · next hdynamic =>
    rw [List.filter_eq_nil_iff]
    intro token ht
    rw [decide_eq_true_eq]
    exact drawn_not_archive (drawn_cLibrary_of_dynamic hdynamic token ht) (by decide) (List.forall_mem_nil _)

theorem archives_eq : r.archives = if r.profile.libc.isStatic then [r.primary "libc.a"] else [] := by
  have hnone {tokens : List String} (h : ∀ token ∈ tokens, ¬ "libc.a".toList <:+ token.toList) :
      tokens.filter (fun token => "libc.a".toList <:+ token.toList) = [] := by
    rw [List.filter_eq_nil_iff]
    intro token ht
    rw [decide_eq_true_eq]
    exact h token ht
  have hplain : ∀ token ∈ r.plainTokens, ¬ "libc.a".toList <:+ token.toList := fun token ht =>
    drawn_not_archive (drawn_plainTokens token ht) (by decide +kernel) (by decide)
  have hstatic : ∀ token ∈ r.staticOption, ¬ "libc.a".toList <:+ token.toList := fun token ht =>
    drawn_not_archive (drawn_staticOption token ht) (by decide) (List.forall_mem_nil _)
  have hloader : ∀ token ∈ r.loaderOption, ¬ "libc.a".toList <:+ token.toList := fun token ht =>
    drawn_not_archive (drawn_loader token ht) (by decide) (List.forall_mem_nil _)
  have hopening : ∀ token ∈ r.openingObjects, ¬ "libc.a".toList <:+ token.toList := fun token ht =>
    drawn_not_archive (drawn_openingObjects token ht) (List.forall_mem_nil _) (by decide)
  have hhosted : ∀ token ∈ r.hostedObjects, ¬ "libc.a".toList <:+ token.toList := fun token ht =>
    drawn_not_archive (drawn_hostedObjects token ht) (List.forall_mem_nil _) (by decide)
  have hends : ∀ token ∈ r.elfEnd, ¬ "libc.a".toList <:+ token.toList := fun token ht =>
    drawn_not_archive (drawn_end token ht) (List.forall_mem_nil _) (by decide)
  have htail : ∀ token ∈ r.elfTail, ¬ "libc.a".toList <:+ token.toList := fun token ht =>
    tail_not_archive (tailToken_tail token ht)
  simp only [archives, placed, List.filter_append, hnone hplain, hnone hstatic, hnone hloader, hnone hopening,
    hnone hhosted, hnone hends, hnone htail, filter_cLibrary, List.nil_append, List.append_nil]

theorem archive_mem_pathOptions (hpe : r.profile.os.isPe = false) (h : r.primary "libc.a" ∈ r.pathOptions) :
    ['-'] <+: r.primaryDir.chars := by
  have hdash : ['-'] <+: (r.primary "libc.a").toList := by
    have hmarks : ∀ mark ∈ pathMarks, ['-'] <+: mark.toList := by decide
    obtain ⟨mark, hmark, rest, heq⟩ := eq_append_of_pathOption hpe h
    rewrite [heq]
    exact (hmarks mark hmark).trans (isPrefix_append mark rest)
  exact (Path.isPrefix_of_child (by decide) (by decide) hdash).1

structure LinkedByLibc (r : LinkRequest) : Prop where
  made_of : r.args.Perm (r.emitted ++ r.given)
  static : r.profile.libc ∈ [.musl, .zisk, .ziskSim] →
    "-static" ∈ r.emitted ∧ r.archives = [r.primary "libc.a"] ∧
      ∀ word ∈ ["-dynamic-linker", "-lc", "-lgcc", "-lgcc_s", "-lrt", "-lpthread"], word ∉ r.emitted
  dynamic : r.profile.libc ∉ [.musl, .zisk, .ziskSim] →
    "-static" ∉ r.emitted ∧ r.archives = [] ∧ "-lc" ∈ r.emitted ∧ "-lgcc" ∈ r.emitted ∧
      ("-dynamic-linker" ∈ r.emitted ↔ r.policy.linkType ≠ .sharedLibrary)
  archive : r.primary "libc.a" ∈ r.pathOptions → ['-'] <+: r.primaryDir.chars

structure LinkedAlike (r s : LinkRequest) : Prop where
  words : ∀ word ∈ ["-static", "-lc", "-lgcc", "-lgcc_s", "-lrt"], word ∈ r.emitted ↔ word ∈ s.emitted
  archives : r.archives = [] ↔ s.archives = []

theorem isStatic_iff {libc : Libc} : libc.isStatic = true ↔ libc ∈ [.musl, .zisk, .ziskSim] := by
  cases libc <;> decide

theorem linkedByLibc (hpe : r.profile.os.isPe = false) : r.LinkedByLibc := by
  constructor
  case made_of => exact args_perm hpe
  case static =>
    intro hlibc
    have hstatic := isStatic_iff.mpr hlibc
    have hlinkage : linkageOf r.profile.libc = ["-static"] := by rw [linkageOf, if_pos hstatic]
    refine ⟨?_, ?_, ?_⟩
    · rw [mem_emitted_iff_linkageOf hpe (by decide), hlinkage]
      exact List.mem_singleton_self _
    · rw [archives_eq, if_pos hstatic]
    · have hlibrary (word : String) (hlisted : word ∈ ["-lc", "-lgcc", "-lgcc_s", "-lrt"]) : word ∉ r.emitted := by
        rw [mem_emitted_iff_linkageOf hpe (List.mem_cons_of_mem _ hlisted), hlinkage, List.mem_singleton]
        exact fun h => absurd (h ▸ hlisted) (by decide)
      have hloader : "-dynamic-linker" ∉ r.emitted := by
        rw [loader_mem_emitted_iff hpe, hstatic]
        exact fun h => Bool.noConfusion h.2
      simp only [List.forall_mem_cons]
      exact ⟨hloader, hlibrary _ (by decide), hlibrary _ (by decide), hlibrary _ (by decide), hlibrary _ (by decide),
        threads_not_mem_emitted hpe hstatic, List.forall_mem_nil _⟩
  case dynamic =>
    intro hlibc
    have hdynamic : r.profile.libc.isStatic = false := Bool.eq_false_iff.mpr (fun h => hlibc (isStatic_iff.mp h))
    have hlinkage : ["-lc", "-lgcc"] ⊆ linkageOf r.profile.libc := by
      rw [linkageOf, hdynamic, if_neg Bool.false_ne_true]
      exact List.subset_append_left _ _
    have hstatic : "-static" ∉ linkageOf r.profile.libc := by
      rw [linkageOf, hdynamic, if_neg Bool.false_ne_true]
      split <;> decide
    refine ⟨?_, ?_, ?_, ?_, ?_⟩
    · rwa [mem_emitted_iff_linkageOf hpe (by decide)]
    · rw [archives_eq, hdynamic, if_neg Bool.false_ne_true]
    · exact (mem_emitted_iff_linkageOf hpe (by decide)).mpr (hlinkage (by decide))
    · exact (mem_emitted_iff_linkageOf hpe (by decide)).mpr (hlinkage (by decide))
    · rw [loader_mem_emitted_iff hpe, hdynamic, isShared, Policy.isShared, beq_eq_false_iff_ne]
      exact and_iff_left rfl
  case archive => exact archive_mem_pathOptions hpe

theorem linkedAlike {s : LinkRequest} (hpe : r.profile.os.isPe = false) (hpe' : s.profile.os.isPe = false)
    (hlibc : r.profile.libc = s.profile.libc) : LinkedAlike r s := by
  constructor
  case words =>
    intro word hword
    rw [mem_emitted_iff_linkageOf hpe hword, mem_emitted_iff_linkageOf hpe' hword, hlibc]
  case archives =>
    rw [archives_eq, archives_eq, hlibc]
    split <;> simp

theorem linkage_settled (hos : r.profile.os = .linux) : r.LinkedByLibc ∧
    ∀ s : LinkRequest, s.profile.os = .linux → r.profile.libc = s.profile.libc → LinkedAlike r s := by
  have hpe {s : LinkRequest} (h : s.profile.os = .linux) : s.profile.os.isPe = false := by
    rw [h]
    rfl
  exact ⟨linkedByLibc (hpe hos), fun s hos' hlibc => linkedAlike (hpe hos) (hpe hos') hlibc⟩

theorem musl_linkage_settled : (bareLinux .musl .executable).LinkedByLibc ∧
    LinkedAlike (bareLinux .musl .executable) (bareLinux .musl .sharedLibrary) := by
  obtain ⟨hlinked, halike⟩ := linkage_settled (r := bareLinux .musl .executable) rfl
  exact ⟨hlinked, halike (bareLinux .musl .sharedLibrary) rfl rfl⟩

end NativeBuild.LinkRequest
