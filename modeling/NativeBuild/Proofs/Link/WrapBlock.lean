import Mathlib.Data.List.Flatten
import Mathlib.Data.List.Perm.Basic
import NativeBuild.Proofs.Link.PlacedTokens
import NativeBuild.Proofs.Link.UserTokens

namespace NativeBuild.LinkRequest

def firmwareOpening (r : LinkRequest) : List String :=
  ["-T" ++ r.memoryScript.text, r.vendor "entrypoint.o", r.vendor "nofp.o"]

def wholeArchive (r : LinkRequest) : List String :=
  [r.vendor "ubootstrap.o", r.vendor "stdcppshim.o"] ++ WrapGroup.all.flatMap (·.tokens r)

def wholeFiles : List String := ["ubootstrap.o", "stdcppshim.o"] ++ WrapGroup.all.flatMap (·.objects)

def symbolsFor (libc : Libc) : List String := WrapGroup.all.flatMap (·.symbolsFor libc)

/-- A token that encloses objects or takes a symbol over. -/
def Wrapping (token : String) : Prop := token ∈ brackets ∨ ∃ symbol ∈ wrappedSymbols, token = wrapFlag symbol

variable {r : LinkRequest} {words files : List String} {token file symbol : String}

theorem zkvmBlock_eq : r.zkvmBlock =
    r.firmwareOpening ++ ["--whole-archive"] ++ r.wholeArchive ++ ["--no-whole-archive"] := by
  simp only [zkvmBlock, firmwareOpening, wholeArchive, List.cons_append, List.nil_append]

theorem elfTail_of_zkvm (h : r.profile.libc ∈ [.zisk, .ziskSim]) : r.elfTail = r.zkvmBlock := by
  have hzkvm : r.profile.libc ≠ .musl ∧ r.profile.libc.isZkvm = true := by
    revert h
    cases r.profile.libc <;> decide
  rw [elfTail_eq, if_neg hzkvm.1, if_pos hzkvm.2]

theorem wrapFlag_injective : Function.Injective wrapFlag := by
  intro a b h
  have hchars := congrArg String.toList h
  rw [wrapFlag, wrapFlag, String.toList_append, String.toList_append] at hchars
  exact String.toList_inj.mp (List.append_cancel_left hchars)

theorem not_wrapping_of_dot (h : '.' ∈ token.toList) : ¬ Wrapping token := by
  have hbrackets : ∀ word ∈ brackets, '.' ∉ word.toList := by decide
  rintro (hbracket | ⟨symbol, hsymbol, rfl⟩)
  · exact hbrackets token hbracket h
  · exact noDot_wrapFlag hsymbol h

theorem not_wrapping_of_word (hbracket : token ∉ brackets) (hflag : ¬ "--wrap=".toList <+: token.toList) :
    ¬ Wrapping token := by
  rintro (h | ⟨symbol, -, rfl⟩)
  · exact hbracket h
  · exact hflag (isPrefix_append "--wrap=" symbol)

theorem not_wrapping_append {mark : String} (rest : String) (hbracket : ∀ word ∈ brackets, ¬ mark.toList <+: word.toList)
    (hshort : ¬ mark.toList <+: "--wrap=".toList) (hlong : ¬ "--wrap=".toList <+: mark.toList) :
    ¬ Wrapping (mark ++ rest) := by
  have hmark := isPrefix_append mark rest
  apply not_wrapping_of_word
  · exact fun h => hbracket _ h hmark
  · exact fun h => (List.prefix_or_prefix_of_prefix hmark h).elim hshort hlong

theorem not_wrapping_drawn (h : Drawn words files token)
    (hwords : ∀ word ∈ words, word ∉ brackets ∧ ¬ "--wrap=".toList <+: word.toList)
    (hfiles : ∀ file ∈ files, '.' ∈ file.toList) : ¬ Wrapping token := by
  cases h with
  | word listed => exact not_wrapping_of_word (hwords token listed).1 (hwords token listed).2
  | file listed base => exact not_wrapping_of_dot (mem_child (hfiles _ listed) base)

theorem not_wrapping_pathOption (hpe : r.profile.os.isPe = false) (h : token ∈ r.pathOptions) : ¬ Wrapping token := by
  have hbracket : ∀ mark ∈ pathMarks, ∀ word ∈ brackets, ¬ mark.toList <+: word.toList := by decide
  have hshort : ∀ mark ∈ pathMarks, ¬ mark.toList <+: "--wrap=".toList := by decide
  have hlong : ∀ mark ∈ pathMarks, ¬ "--wrap=".toList <+: mark.toList := by decide
  obtain ⟨mark, hmark, rest, rfl⟩ := eq_append_of_pathOption hpe h
  exact not_wrapping_append rest (hbracket mark hmark) (hshort mark hmark) (hlong mark hmark)

theorem not_wrapping_opening (h : token ∈ r.firmwareOpening) : ¬ Wrapping token := by
  have hvendor {file : String} (hdot : '.' ∈ file.toList) : ¬ Wrapping (r.vendor file) :=
    not_wrapping_of_dot (mem_child hdot r.vendorDir)
  obtain rfl | h := List.mem_cons.mp h
  · exact not_wrapping_append _ (by decide) (by decide) (by decide)
  · obtain rfl | h := List.mem_cons.mp h
    · exact hvendor (by decide)
    · rw [List.mem_singleton.mp h]
      exact hvendor (by decide)

theorem not_wrapping_plain (h : token ∈ r.plainTokens) : ¬ Wrapping token :=
  not_wrapping_drawn (drawn_plainTokens token h) (by decide +kernel) (by decide)

theorem not_wrapping_front (hpe : r.profile.os.isPe = false) :
    ∀ token ∈ ["-flavor", "ld"] ++ r.searchOptions ++ r.elfOpening ++ r.hostedObjects ++ r.elfBody ++ r.exportsOptions ++
      r.elfLibraries ++ r.elfCLibrary ++ r.elfEnd, ¬ Wrapping token := by
  have hplain : ∀ token ∈ r.plainTokens, ¬ Wrapping token := fun token ht => not_wrapping_plain ht
  have hstatic : ∀ token ∈ r.staticOption, ¬ Wrapping token := fun token ht =>
    not_wrapping_drawn (drawn_staticOption token ht) (by decide) (List.forall_mem_nil _)
  have hloader : ∀ token ∈ r.loaderOption, ¬ Wrapping token := fun token ht =>
    not_wrapping_drawn (drawn_loader token ht) (by decide +kernel) (List.forall_mem_nil _)
  have hobjects : ∀ token ∈ r.openingObjects, ¬ Wrapping token := fun token ht =>
    not_wrapping_drawn (drawn_openingObjects token ht) (List.forall_mem_nil _) (by decide)
  have hhosted : ∀ token ∈ r.hostedObjects, ¬ Wrapping token := fun token ht =>
    not_wrapping_drawn (drawn_hostedObjects token ht) (List.forall_mem_nil _) (by decide)
  have hlibrary : ∀ token ∈ r.elfCLibrary, ¬ Wrapping token := fun token ht =>
    not_wrapping_drawn (drawn_cLibrary token ht) (by decide +kernel) (by decide)
  have hends : ∀ token ∈ r.elfEnd, ¬ Wrapping token := fun token ht =>
    not_wrapping_drawn (drawn_end token ht) (List.forall_mem_nil _) (by decide)
  have hpaths : ∀ token ∈ r.pathOptions, ¬ Wrapping token := fun token ht => not_wrapping_pathOption hpe ht
  simp only [plainTokens, pathOptions, List.forall_mem_append] at hplain hpaths
  obtain ⟨⟨⟨⟨⟨hflavor, hsettings⟩, hentry⟩, houtput⟩, hbody⟩, hlibraries⟩ := hplain
  obtain ⟨hsearch, hexports⟩ := hpaths
  simp only [elfOpening, List.forall_mem_append]
  exact ⟨⟨⟨⟨⟨⟨⟨⟨hflavor, hsearch⟩, ⟨⟨⟨⟨hsettings, hstatic⟩, hloader⟩, hobjects⟩, hentry⟩, houtput⟩, hhosted⟩, hbody⟩,
    hexports⟩, hlibraries⟩, hlibrary⟩, hends⟩

theorem wholeArchive_perm :
    r.wholeArchive.Perm (wholeFiles.map r.vendor ++ (symbolsFor r.profile.libc).map wrapFlag) := by
  have hgroups : (WrapGroup.all.flatMap (·.tokens r)).Perm
      ((symbolsFor r.profile.libc).map wrapFlag ++ (WrapGroup.all.flatMap (·.objects)).map r.vendor) := by
    rw [symbolsFor, List.map_flatMap, List.map_flatMap]
    exact (List.flatMap_append_perm _ _ _).symm
  rw [wholeArchive, wholeFiles, List.map_append, List.append_assoc]
  exact (hgroups.trans List.perm_append_comm).append_left _

theorem mem_wholeArchive_iff : token ∈ r.wholeArchive ↔
    (∃ file ∈ wholeFiles, token = r.vendor file) ∨ ∃ symbol ∈ symbolsFor r.profile.libc, token = wrapFlag symbol := by
  rw [wholeArchive_perm.mem_iff, List.mem_append, List.mem_map, List.mem_map]
  simp only [eq_comm]

theorem nodup_wrappedSymbols : wrappedSymbols.Nodup := by decide +kernel

theorem symbolsFor_sublist {libc : Libc} : (symbolsFor libc).Sublist wrappedSymbols :=
  List.Sublist.flatMap_right _ (fun _ _ => groupSymbols_sublist)

theorem wholeFiles_names : ∀ file ∈ wholeFiles, '/' ∉ file.toList ∧ '.' ∈ file.toList := by decide +kernel

theorem nodup_wholeArchive : r.wholeArchive.Nodup := by
  rw [wholeArchive_perm.nodup_iff, List.nodup_append']
  refine ⟨?_, ?_, ?_⟩
  · have hnodup : wholeFiles.Nodup := by decide +kernel
    refine hnodup.map_on fun a ha b hb h => ?_
    rw [← String.toList_inj, ← lastName_vendor (wholeFiles_names a ha).1, ← lastName_vendor (wholeFiles_names b hb).1, h]
  · exact (nodup_wrappedSymbols.sublist symbolsFor_sublist).map wrapFlag_injective
  -- a file's name has a dot and no flag has one
  · intro token hfile hflag
    obtain ⟨file, hlisted, rfl⟩ := List.mem_map.mp hfile
    obtain ⟨symbol, hsymbol, heq⟩ := List.mem_map.mp hflag
    apply noDot_wrapFlag (symbolsFor_sublist.subset hsymbol)
    rw [heq]
    exact mem_child (wholeFiles_names file hlisted).2 r.vendorDir

theorem not_bracket_of_whole (h : token ∈ r.wholeArchive) : token ∉ brackets := by
  have hdot : ∀ word ∈ brackets, '.' ∉ word.toList := by decide
  have hflag : ∀ word ∈ brackets, ¬ "--wrap=".toList <+: word.toList := by decide
  intro hbracket
  obtain ⟨file, hfile, rfl⟩ | ⟨symbol, -, rfl⟩ := mem_wholeArchive_iff.mp h
  · exact hdot _ hbracket (mem_child (wholeFiles_names file hfile).2 r.vendorDir)
  · exact hflag _ hbracket (isPrefix_append "--wrap=" symbol)

theorem wrapFlag_mem_whole_iff (hsymbol : symbol ∈ wrappedSymbols) :
    wrapFlag symbol ∈ r.wholeArchive ↔ symbol ∈ symbolsFor r.profile.libc := by
  rw [mem_wholeArchive_iff]
  constructor
  · rintro (⟨file, hfile, heq⟩ | ⟨other, hother, heq⟩)
    · apply absurd (mem_child (wholeFiles_names file hfile).2 r.vendorDir)
      rw [← vendor, ← heq]
      exact noDot_wrapFlag hsymbol
    · exact wrapFlag_injective heq ▸ hother
  · exact fun h => .inr ⟨symbol, h, rfl⟩

theorem not_mem_symbolsFor_of_device {libc : Libc} {g : WrapGroup} (hg : g ∈ WrapGroup.all)
    (hsymbol : symbol ∈ g.deviceSymbols) (hlibc : libc ≠ .zisk) : symbol ∉ symbolsFor libc := by
  have hplain : symbolsFor libc = WrapGroup.all.flatMap (·.symbols) := by
    simp only [symbolsFor, WrapGroup.symbolsFor, if_neg hlibc, List.append_nil]
  -- no symbol stands twice in the table, so none is both taken over everywhere and on the device only
  have hparts : (WrapGroup.all.flatMap (·.symbols) ++ WrapGroup.all.flatMap (·.deviceSymbols)).Nodup :=
    (List.flatMap_append_perm _ _ _).nodup_iff.mpr nodup_wrappedSymbols
  have hdisjoint := (List.nodup_append'.mp hparts).2.2
  rw [hplain]
  exact fun h => hdisjoint h (List.mem_flatMap.mpr ⟨g, hg, hsymbol⟩)

theorem flag_before_object {g : WrapGroup} {object : String} (hg : g ∈ WrapGroup.all)
    (hsymbol : symbol ∈ g.symbolsFor r.profile.libc) (hobject : object ∈ g.objects) :
    [wrapFlag symbol, r.vendor object].Sublist r.wholeArchive := by
  have hgroup : [wrapFlag symbol, r.vendor object].Sublist (g.tokens r) :=
    (List.singleton_sublist.mpr (List.mem_map_of_mem hsymbol)).append
      (List.singleton_sublist.mpr (List.mem_map_of_mem hobject))
  have hgroups : (g.tokens r).Sublist (WrapGroup.all.flatMap (·.tokens r)) := by
    rw [List.flatMap_def]
    exact List.sublist_flatten_of_mem (List.mem_map_of_mem hg)
  exact (hgroup.trans hgroups).trans (List.sublist_append_right _ _)

def TakenOver (r : LinkRequest) (g : WrapGroup) (symbol : String) : Prop :=
  r.wholeArchive.count (wrapFlag symbol) = 1 ∧
    ∀ object ∈ g.objects, [wrapFlag symbol, r.vendor object].Sublist r.wholeArchive

theorem takenOver {g : WrapGroup} (hg : g ∈ WrapGroup.all) (hsymbol : symbol ∈ g.symbolsFor r.profile.libc) :
    r.TakenOver g symbol := by
  refine ⟨?_, fun object hobject => flag_before_object hg hsymbol hobject⟩
  apply List.count_eq_one_of_mem nodup_wholeArchive
  rw [wrapFlag_mem_whole_iff (mem_wrappedSymbols hg hsymbol)]
  exact List.mem_flatMap.mpr ⟨g, hg, hsymbol⟩

structure WrapsSymbols (r : LinkRequest) : Prop where
  args : ∀ inputs flags, (r.withUser inputs flags).args = ["-flavor", "ld"] ++ r.searchOptions ++ r.elfOpening ++
    [r.output.text] ++ r.hostedObjects ++ [r.object.text] ++ r.elfBody ++ r.exportsOptions ++ r.elfLibraries ++
    r.elfCLibrary ++ r.elfEnd ++ inputs.map r.expandInput ++ r.firmwareOpening ++ ["--whole-archive"] ++
    r.wholeArchive ++ ["--no-whole-archive"] ++ flags
  outside : ∀ token ∈ ["-flavor", "ld"] ++ r.searchOptions ++ r.elfOpening ++ r.hostedObjects ++ r.elfBody ++
    r.exportsOptions ++ r.elfLibraries ++ r.elfCLibrary ++ r.elfEnd ++ r.firmwareOpening, ¬ Wrapping token
  unbracketed : ∀ token ∈ r.wholeArchive, token ∉ brackets
  objects : ∀ g ∈ WrapGroup.all, ∀ object ∈ g.objects, r.wholeArchive.count (r.vendor object) = 1
  flags : ∀ g ∈ WrapGroup.all, ∀ symbol ∈ g.symbols, r.TakenOver g symbol
  device : r.profile.libc = .zisk → ∀ g ∈ WrapGroup.all, ∀ symbol ∈ g.deviceSymbols, r.TakenOver g symbol
  emulated : r.profile.libc = .ziskSim → ∀ g ∈ WrapGroup.all, ∀ symbol ∈ g.deviceSymbols,
    wrapFlag symbol ∉ r.wholeArchive

theorem wrapsSymbols (hos : r.profile.os = .linux) (hlibc : r.profile.libc ∈ [.zisk, .ziskSim]) : r.WrapsSymbols := by
  have hpe : r.profile.os.isPe = false := by
    rw [hos]
    rfl
  constructor
  case args =>
    intro inputs flags
    have hargs : (r.withUser inputs flags).args = r.elfFront ++ inputs.map r.expandInput ++ r.elfTail ++ flags :=
      args_eq (r := r.withUser inputs flags) hpe
    rw [hargs, elfTail_of_zkvm hlibc, zkvmBlock_eq, elfFront]
    simp only [List.append_assoc]
  case outside =>
    rw [List.forall_mem_append]
    exact ⟨not_wrapping_front hpe, fun token ht => not_wrapping_opening ht⟩
  case unbracketed => exact fun token ht => not_bracket_of_whole ht
  case objects =>
    intro g hg object hobject
    apply List.count_eq_one_of_mem nodup_wholeArchive
    rw [mem_wholeArchive_iff]
    exact .inl ⟨object, List.mem_append_right _ (List.mem_flatMap.mpr ⟨g, hg, hobject⟩), rfl⟩
  case flags =>
    intro g hg symbol hsymbol
    exact takenOver hg (List.mem_append_left _ hsymbol)
  case device =>
    intro hdevice g hg symbol hsymbol
    refine takenOver hg (List.mem_append_right _ ?_)
    rwa [if_pos hdevice]
  case emulated =>
    intro hsim g hg symbol hsymbol
    have hlisted : symbol ∈ wrappedSymbols := List.mem_flatMap.mpr ⟨g, hg, List.mem_append_right _ hsymbol⟩
    rw [wrapFlag_mem_whole_iff hlisted]
    exact not_mem_symbolsFor_of_device hg hsymbol (hsim ▸ by decide)

theorem firmware_wrapsSymbols :
    ((bareLinux .zisk .executable).WrapsSymbols ∧ (bareLinux .ziskSim .executable).WrapsSymbols) ∧
      (∀ libc ∈ [Libc.zisk, .ziskSim], "--wrap=getenv" ∈ (bareLinux libc .executable).wholeArchive) ∧
      "--wrap=__stdio_write" ∈ (bareLinux .zisk .executable).wholeArchive ∧
      "--wrap=__stdio_write" ∉ (bareLinux .ziskSim .executable).wholeArchive := by
  refine ⟨⟨wrapsSymbols rfl (by decide), wrapsSymbols rfl (by decide)⟩, ?_, ?_, ?_⟩
  · decide +kernel
  · decide +kernel
  · decide +kernel

end NativeBuild.LinkRequest
