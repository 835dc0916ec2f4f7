import NativeBuild.Build.Context
import NativeBuild.Proofs.Link.Tokens

namespace NativeBuild

def NamesFile (file token : String) : Prop := token = file ∨ '/' :: file.toList <:+ token.toList

instance (file token : String) : Decidable (NamesFile file token) := inferInstanceAs (Decidable (_ ∨ _))

def NamesStartup (token : String) : Prop := NamesFile "crt1.o" token ∨ NamesFile "crti.o" token

instance (token : String) : Decidable (NamesStartup token) := inferInstanceAs (Decidable (_ ∨ _))

variable {file name token : String}

theorem NamesFile.suffix (h : NamesFile file token) (hname : name.toList <:+ token.toList)
    (hplain : '/' ∉ name.toList) : name.toList <:+ file.toList := by
  obtain rfl | hpath := h
  · exact hname
  · obtain hshort | hlong := List.suffix_or_suffix_of_suffix hname hpath
    · obtain heq | hsuffix := List.suffix_cons_iff.mp hshort
      · exact absurd (heq ▸ List.mem_cons_self) hplain
      · exact hsuffix
    · exact absurd (hlong.subset List.mem_cons_self) hplain

structure Unrelated (name : String) : Prop where
  plain : '/' ∉ name.toList
  crt1 : ¬ name.toList <:+ "crt1.o".toList
  crti : ¬ name.toList <:+ "crti.o".toList

instance (name : String) : Decidable (Unrelated name) :=
  decidable_of_iff ('/' ∉ name.toList ∧ ¬ name.toList <:+ "crt1.o".toList ∧ ¬ name.toList <:+ "crti.o".toList)
    ⟨fun ⟨plain, crt1, crti⟩ => ⟨plain, crt1, crti⟩, fun ⟨plain, crt1, crti⟩ => ⟨plain, crt1, crti⟩⟩

theorem Unrelated.of_chars {cs : List Char} (plain : '/' ∉ cs)
    (crt1 : ¬ cs <:+ ['c', 'r', 't', '1', '.', 'o']) (crti : ¬ cs <:+ ['c', 'r', 't', 'i', '.', 'o']) :
    Unrelated (String.ofList cs) := by
  constructor <;> rw [String.toList_ofList] <;> assumption

theorem Unrelated.not_namesStartup (h : Unrelated name) (hname : name.toList <:+ token.toList) :
    ¬ NamesStartup token := by
  rintro (hcrt1 | hcrti)
  · exact h.crt1 (hcrt1.suffix hname h.plain)
  · exact h.crti (hcrti.suffix hname h.plain)

theorem Path.suffix_child (base : Path) (name : String) : name.toList <:+ (base.child name).text.toList := by
  rw [child, join]
  split
  · exact List.suffix_rfl
  · split
    · exact List.suffix_rfl
    · split
      · simp only [String.toList_append]
        exact List.suffix_append _ _
      · simp only [String.toList_append]
        exact List.suffix_append _ _

theorem Path.namesFile_child (base : Path) (hplain : '/' ∉ name.toList) : NamesFile name (base.child name).text := by
  have habsolute : Path.isAbsolute ⟨name⟩ = false := by
    rw [isAbsolute, chars]
    cases hcs : name.toList with
    | nil => rfl
    | cons c cs =>
      have hc : c ≠ '/' := fun h => hplain (by rw [hcs, h]; exact List.mem_cons_self)
      simpa using hc
  rw [child, join, habsolute, if_neg Bool.false_ne_true]
  split
  · exact .inl rfl
  · split
    · next hends =>
      obtain ⟨front, hfront⟩ := List.getLast?_eq_some_iff.mp hends
      have htext : base.text.toList = front ++ ['/'] := hfront
      refine .inr ⟨front, ?_⟩
      rw [String.toList_append, htext, List.append_assoc]
      rfl
    · refine .inr ⟨base.text.toList, ?_⟩
      rw [String.toList_append, String.toList_append, List.append_assoc]
      rfl

theorem Unrelated.child (h : Unrelated name) (base : Path) : ¬ NamesStartup (base.child name).text :=
  h.not_namesStartup (base.suffix_child name)

theorem Unrelated.append (h : Unrelated name) (front : String) : ¬ NamesStartup (front ++ name) := by
  apply h.not_namesStartup
  rw [String.toList_append]
  exact List.suffix_append _ _

namespace LinkRequest

variable (r : LinkRequest)

inductive Given : String → Prop where
  | object : Given r.object.text
  | output : Given r.output.text
  | libraryDir (dir : Path) (listed : dir ∈ r.libDirs) : Given ("-L" ++ dir.text)
  | exports (exports : Path) (listed : r.exports = some exports) : Given (versionScript exports)
  | input (input : String) (listed : input ∈ r.extraInputs) : Given (r.expandInput input)
  | flag (flag : String) (listed : flag ∈ r.ldflags) : Given flag

def startupTokens : List String := if r.isShared then [] else [r.vendor "crt1.o", r.primary "crti.o"]

/-- Where a token that names a startup object comes from. -/
def Traced (token : String) : Prop := NamesStartup token → r.Given token ∨ token ∈ r.startupTokens

variable {r}

theorem Traced.of_not {token : String} (h : ¬ NamesStartup token) : r.Traced token := fun hnames => absurd hnames h

theorem Traced.of_given {token : String} (h : r.Given token) : r.Traced token := fun _ => .inl h

theorem traced_literals {tokens : List String} (h : ∀ token ∈ tokens, ¬ NamesStartup token) :
    ∀ token ∈ tokens, r.Traced token := fun token ht => .of_not (h token ht)

theorem traced_primary (h : Unrelated file) : r.Traced (r.primary file) := .of_not (h.child r.primaryDir)

theorem traced_vendor (h : Unrelated file) : r.Traced (r.vendor file) := .of_not (h.child r.vendorDir)

theorem traced_zkvmBlock : ∀ token ∈ r.zkvmBlock, r.Traced token := by
  -- the names of the symbols are taken apart as literals: to compute their characters is slow
  have hsymbols : ∀ g ∈ WrapGroup.all, ∀ symbol ∈ g.symbols ++ g.deviceSymbols, Unrelated symbol := by
    simp only [WrapGroup.all, List.forall_mem_cons, List.forall_mem_append, List.not_mem_nil, false_implies,
      implies_true, and_true]
    repeat' apply And.intro
    all_goals exact .of_chars (by decide) (by decide) (by decide)
  have hobjects : ∀ g ∈ WrapGroup.all, ∀ object ∈ g.objects, Unrelated object := by decide +kernel
  have hfiles : ∀ file ∈ ["entrypoint.o", "nofp.o", "ubootstrap.o", "stdcppshim.o"], Unrelated file := by decide
  apply forall_mem_zkvmBlock
  · have hname : Unrelated "script.ld" := by decide
    apply Traced.of_not
    apply hname.not_namesStartup
    rw [String.toList_append]
    exact (Path.suffix_child _ _).trans (List.suffix_append _ _)
  · exact traced_literals (by decide)
  · exact fun file hfile => traced_vendor (hfiles file hfile)
  · apply forall_mem_wrapGroups
    · exact fun g hg symbol hlisted => .of_not ((hsymbols g hg symbol hlisted).append "--wrap=")
    · exact fun g hg object hlisted => traced_vendor (hobjects g hg object hlisted)

theorem traced_elfOptions : ∀ token ∈ r.elfOptions, r.Traced token := by
  have hdirs : ∀ token ∈ r.libDirs.map ("-L" ++ ·.text), r.Traced token := by
    intro token ht
    obtain ⟨dir, hdir, rfl⟩ := List.mem_map.mp ht
    exact .of_given (.libraryDir dir hdir)
  rw [elfOptions]
  simp only [List.forall_mem_append]
  refine ⟨⟨⟨⟨⟨?_, hdirs⟩, ?_⟩, ?_⟩, ?_⟩, ?_⟩
  · exact traced_literals (by decide)
  · exact traced_literals (by decide)
  · exact forall_mem_ite (traced_literals (by decide)) (List.forall_mem_nil _)
  · exact forall_mem_ite (traced_literals (by decide)) (List.forall_mem_nil _)
  · exact forall_mem_ite (traced_literals (by decide)) (List.forall_mem_nil _)

theorem traced_elfKind : ∀ token ∈ r.elfKind, r.Traced token := by
  have hfiles : ∀ file ∈ ["libbootstrapperdll.o", "libbootstrapper.o"], Unrelated file := by decide
  apply forall_mem_elfKind
  · exact fun file hfile => traced_primary (hfiles file hfile)
  · exact traced_literals (by decide)
  · exact fun _ exports hlisted => .of_given (.exports exports hlisted)

theorem traced_elfRuntime : ∀ token ∈ r.elfRuntime, r.Traced token :=
  forall_mem_elfRuntime (traced_literals (by decide)) (traced_primary (by decide))

section Firmware

variable (hlibc : r.profile.libc.isZkvm = true)

include hlibc

theorem isStatic_of_isZkvm : r.profile.libc.isStatic = true := by
  rw [Libc.isStatic, hlibc, Bool.or_true]

theorem ne_bionic_of_isZkvm : r.profile.libc ≠ .bionic := by
  intro h
  rw [h] at hlibc
  cases hlibc

theorem traced_elfStartup : ∀ token ∈ r.elfStartup, r.Traced token := by
  have hstatic := isStatic_of_isZkvm hlibc
  have hbionic := ne_bionic_of_isZkvm hlibc
  rw [elfStartup]
  cases hshared : r.isShared with
  | true => simp [hbionic]
  | false =>
    have hmain : ∀ token ∈ (if r.usesDotnet then [] else ["--defsym=main=__managed__Main"]), r.Traced token :=
      forall_mem_ite (List.forall_mem_nil _) (traced_literals (by decide))
    have hobjects : ∀ token ∈ [r.vendor "crt1.o", r.primary "crti.o"], r.Traced token := by
      intro token ht _
      rw [startupTokens, hshared]
      exact .inr ht
    simp only [hbionic, hstatic, hlibc, Bool.false_eq_true, if_false, if_true, List.forall_mem_append]
    exact ⟨hobjects, hmain⟩

theorem traced_elfProgram : ∀ token ∈ r.elfProgram, r.Traced token := by
  have hhosted : r.isHosted = false := by simp [isHosted, isStatic_of_isZkvm hlibc]
  simp only [elfProgram, hhosted, Bool.false_eq_true, if_false, List.append_nil, List.forall_mem_append]
  constructor
  · rw [List.forall_mem_cons, List.forall_mem_singleton]
    exact ⟨.of_not (by decide), .of_given .output⟩
  · rw [List.forall_mem_cons]
    exact ⟨.of_given .object, traced_literals (by decide)⟩

theorem traced_elfHead : ∀ token ∈ r.elfHead, r.Traced token := by
  have hclibrary : ∀ token ∈ r.elfCLibrary, r.Traced token := by
    rw [elfCLibrary, if_pos (isStatic_of_isZkvm hlibc)]
    exact List.forall_mem_singleton.mpr (traced_primary (by decide))
  have hend : ∀ token ∈ r.elfEnd, r.Traced token := by
    rw [elfEnd, if_neg (ne_bionic_of_isZkvm hlibc), if_pos (isStatic_of_isZkvm hlibc)]
    exact List.forall_mem_singleton.mpr (traced_primary (by decide))
  rw [elfHead]
  simp only [List.forall_mem_append]
  exact ⟨⟨⟨⟨⟨⟨⟨traced_elfOptions, traced_elfStartup hlibc⟩, traced_elfProgram hlibc⟩, traced_elfKind⟩,
    traced_elfRuntime⟩, traced_literals (by decide)⟩, hclibrary⟩, hend⟩

theorem traced_elfTail : ∀ token ∈ r.elfTail, r.Traced token := by
  rw [elfTail, if_pos hlibc, List.forall_mem_append]
  refine ⟨forall_mem_ite ?_ (List.forall_mem_nil _), traced_zkvmBlock⟩
  exact List.forall_mem_singleton.mpr (traced_primary (by decide))

theorem traced_elfArgs : ∀ token ∈ r.elfArgs, r.Traced token := by
  rw [elfArgs]
  simp only [List.forall_mem_append]
  refine ⟨⟨⟨traced_elfHead hlibc, ?_⟩, traced_elfTail hlibc⟩, ?_⟩
  · intro token ht
    obtain ⟨input, hinput, rfl⟩ := List.mem_map.mp ht
    exact .of_given (.input input hinput)
  · exact fun token ht => .of_given (.flag token ht)

theorem startupTokens_subset : r.startupTokens ⊆ r.elfArgs := by
  rw [startupTokens]
  cases hshared : r.isShared with
  | true => exact List.nil_subset _
  | false =>
    have hstartup : [r.vendor "crt1.o", r.primary "crti.o"] ⊆ r.elfStartup := by
      simp only [elfStartup, hshared, ne_bionic_of_isZkvm hlibc, isStatic_of_isZkvm hlibc, hlibc,
        Bool.false_eq_true, if_false, if_true]
      exact List.subset_append_left _ _
    have hhead : r.elfStartup ⊆ r.elfHead := by
      intro token ht
      simp only [elfHead, List.mem_append, ht, true_or, or_true]
    intro token ht
    have hown : token ∈ r.elfHead := hhead (hstartup ht)
    simp only [elfArgs, List.mem_append, hown, true_or]

end Firmware

end LinkRequest

namespace BuildContext

variable {c : BuildContext}

theorem startupObjects_eq (hlibc : c.profile.libc.isZkvm = true) :
    c.startupObjects.map Path.text = c.linkRequest.startupTokens := by
  have hshared : c.linkRequest.isShared = !c.policy.linkType.isExecutable := by
    rw [LinkType.isExecutable, bne, Bool.not_not]
    rfl
  rw [startupObjects, LinkRequest.startupTokens, hlibc, Bool.true_and, hshared]
  cases c.policy.linkType.isExecutable with
  | false => rfl
  | true =>
    have hdir (primary : Path) : Layout.startupDir c.profile.libc primary c.tools.zkvmDir = c.tools.zkvmDir := by
      rw [Layout.startupDir, if_pos hlibc]
    simp only [hdir, if_true, Bool.not_true, Bool.false_eq_true, if_false, List.map_cons, List.map_nil,
      LinkRequest.vendor, LinkRequest.primary, LinkRequest.primaryDir, linkRequest, primaryDir]

end BuildContext

end NativeBuild
