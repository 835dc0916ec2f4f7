import NativeBuild.Proofs.Link.PlacedTokens

namespace NativeBuild

def OpensName (name : List Char) : Prop :=
  name ∈ ["crt1.o".toList, "Scrt1.o".toList, "crti.o".toList] ∨ "crtbegin".toList <+: name

def ClosesName (name : List Char) : Prop := name = "crtn.o".toList ∨ "crtend".toList <+: name

instance : DecidablePred OpensName := fun _ => inferInstanceAs (Decidable (_ ∨ _))

instance : DecidablePred ClosesName := fun _ => inferInstanceAs (Decidable (_ ∨ _))

namespace LinkRequest

def openingNames (libc : Libc) (shared : Bool) : List (List Char) :=
  if libc = .bionic then [if shared then "crtbegin_so.o".toList else "crtbegin_dynamic.o".toList]
  else if libc.isStatic then (if shared then [] else ["crt1.o".toList, "crti.o".toList])
  else (if shared then [] else ["Scrt1.o".toList]) ++ ["crti.o".toList, "crtbeginS.o".toList]

def closingNames (libc : Libc) (shared : Bool) : List (List Char) :=
  if libc = .bionic then [if shared then "crtend_so.o".toList else "crtend_android.o".toList]
  else if libc.isStatic then ["crtn.o".toList]
  else ["crtendS.o".toList, "crtn.o".toList]

def names (tokens : List String) : List (List Char) := tokens.map lastName

variable {r : LinkRequest} {words files : List String} {token file : String}

theorem names_opening : names (r.openingObjects ++ r.hostedObjects) = openingNames r.profile.libc r.isShared := by
  rw [openingObjects, hostedObjects, openingNames, isHosted]
  cases hlibc : r.profile.libc <;> cases r.isShared <;>
    simp (disch := decide) [names, lastName_primary, lastName_vendor, Libc.isStatic, Libc.isZkvm]

theorem names_end : names r.elfEnd = closingNames r.profile.libc r.isShared := by
  rw [elfEnd, closingNames]
  cases hlibc : r.profile.libc <;> cases r.isShared <;>
    simp (disch := decide) [names, lastName_primary, Libc.isStatic, Libc.isZkvm]

def RuntimeName (name : List Char) : Prop := OpensName name ∨ ClosesName name

instance : DecidablePred RuntimeName := fun _ => inferInstanceAs (Decidable (_ ∨ _))

theorem drawn_name (holds : List Char → Prop) (h : Drawn words files token)
    (hwords : ∀ word ∈ words, holds (lastName word)) (hfiles : ∀ file ∈ files, '/' ∉ file.toList ∧ holds file.toList) :
    holds (lastName token) := by
  cases h with
  | word listed => exact hwords token listed
  | @file file listed base =>
    obtain ⟨hplain, hname⟩ := hfiles file listed
    rwa [lastName_child hplain]

theorem not_runtimeName_of_dash {rest : List Char} : ¬ RuntimeName ('-' :: rest) := by
  simp [RuntimeName, OpensName, ClosesName]

theorem lastName_append {front text : String} (hfront : '/' ∉ front.toList) (hplain : '/' ∉ file.toList)
    (h : NamesFile file text) :
    lastName (front ++ text) = (front ++ file).toList ∨ lastName (front ++ text) = file.toList := by
  obtain rfl | hpath := h
  · left
    apply lastName_of_plain
    rw [String.toList_append, List.mem_append]
    exact not_or.mpr ⟨hfront, hplain⟩
  · right
    apply lastName_of_namesFile hplain
    right
    rw [String.toList_append]
    exact hpath.trans (List.suffix_append _ _)

theorem tail_name : ∀ token ∈ r.elfTail, ¬ RuntimeName (lastName token) := by
  intro token ht
  cases tailToken_tail token ht with
  | drawn origin => exact drawn_name (¬ RuntimeName ·) origin (by decide +kernel) (by decide +kernel)
  | script =>
    -- without a directory the option is all of the token's name, else the name is the script's
    have hplain : '/' ∉ "script.ld".toList := by decide
    have hscript : NamesFile "script.ld" r.memoryScript.text := Path.namesFile_child _ hplain
    have hname : lastName ("-T" ++ r.memoryScript.text) = ("-T" ++ "script.ld").toList ∨
        lastName ("-T" ++ r.memoryScript.text) = "script.ld".toList := lastName_append (by decide) hplain hscript
    obtain h | h := hname
    · rw [h]
      decide
    · rw [h]
      decide
  | @wrap symbol listed =>
    have hplain : '/' ∉ (wrapFlag symbol).toList := by
      rw [wrapFlag, String.toList_append, List.mem_append]
      exact not_or.mpr ⟨by decide, (identifier_of_wrapped symbol listed).noSeparator⟩
    rw [lastName_of_plain hplain, wrapFlag, String.toList_append]
    exact not_runtimeName_of_dash

def inertTokens (r : LinkRequest) : List String :=
  r.plainTokens ++ r.staticOption ++ r.loaderOption ++ r.elfCLibrary ++ r.elfTail

theorem inert_name : ∀ token ∈ r.inertTokens, ¬ RuntimeName (lastName token) := by
  have hdrawn {words files tokens : List String} (h : ∀ token ∈ tokens, Drawn words files token)
      (hwords : ∀ word ∈ words, ¬ RuntimeName (lastName word))
      (hfiles : ∀ file ∈ files, '/' ∉ file.toList ∧ ¬ RuntimeName file.toList) :
      ∀ token ∈ tokens, ¬ RuntimeName (lastName token) :=
    fun token ht => drawn_name (¬ RuntimeName ·) (h token ht) hwords hfiles
  rw [inertTokens]
  simp only [List.forall_mem_append]
  refine ⟨⟨⟨⟨?_, ?_⟩, ?_⟩, ?_⟩, tail_name⟩
  · exact hdrawn drawn_plainTokens (by decide +kernel) (by decide +kernel)
  · exact hdrawn drawn_staticOption (by decide +kernel) (List.forall_mem_nil _)
  · exact hdrawn drawn_loader (by decide +kernel) (List.forall_mem_nil _)
  · exact hdrawn drawn_cLibrary (by decide +kernel) (by decide +kernel)

theorem opening_name : ∀ token ∈ r.openingObjects ++ r.hostedObjects,
    OpensName (lastName token) ∧ ¬ ClosesName (lastName token) := by
  intro token ht
  have hdrawn : Drawn [] openingFiles token :=
    (List.mem_append.mp ht).elim (drawn_openingObjects token) (drawn_hostedObjects token)
  exact drawn_name (fun name => OpensName name ∧ ¬ ClosesName name) hdrawn (List.forall_mem_nil _) (by decide +kernel)

theorem end_name : ∀ token ∈ r.elfEnd, ClosesName (lastName token) ∧ ¬ OpensName (lastName token) := by
  intro token ht
  exact drawn_name (fun name => ClosesName name ∧ ¬ OpensName name) (drawn_end token ht) (List.forall_mem_nil _)
    (by decide +kernel)

theorem placed_perm : r.placed.Perm (r.inertTokens ++ (r.openingObjects ++ r.hostedObjects) ++ r.elfEnd) := by
  rw [List.perm_iff_count]
  intro token
  simp only [placed, inertTokens, List.count_append]
  omega

theorem filter_names_inert : (names r.inertTokens).filter RuntimeName = [] := by
  rw [List.filter_eq_nil_iff, names, List.forall_mem_map]
  simpa using inert_name

theorem filter_names_opening : (names (r.openingObjects ++ r.hostedObjects)).filter RuntimeName =
    openingNames r.profile.libc r.isShared := by
  rw [← names_opening, List.filter_eq_self, names, List.forall_mem_map]
  exact fun token ht => decide_eq_true (.inl (opening_name token ht).1)

theorem filter_names_end : (names r.elfEnd).filter RuntimeName = closingNames r.profile.libc r.isShared := by
  rw [← names_end, List.filter_eq_self, names, List.forall_mem_map]
  exact fun token ht => decide_eq_true (.inr (end_name token ht).1)

theorem runtimeNames_perm : ((names r.placed).filter RuntimeName).Perm
    (openingNames r.profile.libc r.isShared ++ closingNames r.profile.libc r.isShared) := by
  have hperm := (placed_perm (r := r).map lastName).filter RuntimeName
  rw [List.map_append, List.map_append, List.filter_append, List.filter_append] at hperm
  rwa [← names, ← names, ← names, ← names, filter_names_inert, filter_names_opening, filter_names_end] at hperm

/-- A shared library that is linked wholly from archives has no object of the C runtime before the program. -/
def Unopened (libc : Libc) (shared : Bool) : Prop := shared = true ∧ libc ∈ [.musl, .zisk, .ziskSim]

instance (libc : Libc) (shared : Bool) : Decidable (Unopened libc shared) := inferInstanceAs (Decidable (_ ∧ _))

structure BalancedNames (libc : Libc) (shared : Bool) (names : List (List Char)) : Prop where
  init : ¬ Unopened libc shared → ("crti.o".toList ∈ names ↔ "crtn.o".toList ∈ names)
  unopened : Unopened libc shared → "crti.o".toList ∉ names ∧ "crtn.o".toList ∈ names
  frame : (∃ name ∈ names, "crtbegin".toList <+: name) ↔ ∃ name ∈ names, "crtend".toList <+: name
  init_once : names.countP (· == "crti.o".toList) ≤ 1
  fini_once : names.countP (· == "crtn.o".toList) ≤ 1
  begin_once : names.countP ("crtbegin".toList.isPrefixOf ·) ≤ 1
  end_once : names.countP ("crtend".toList.isPrefixOf ·) ≤ 1

theorem balancedNames (libc : Libc) (shared : Bool) :
    BalancedNames libc shared (openingNames libc shared ++ closingNames libc shared) := by
  -- names alone are left here, and of these few enough to try them all
  constructor
  case init => cases libc <;> cases shared <;> decide
  case unopened => cases libc <;> cases shared <;> decide
  case frame => cases libc <;> cases shared <;> decide
  case init_once => cases libc <;> cases shared <;> decide
  case fini_once => cases libc <;> cases shared <;> decide
  case begin_once => cases libc <;> cases shared <;> decide
  case end_once => cases libc <;> cases shared <;> decide

section Found

variable {found expected : List (List Char)} {name : List Char}

theorem mem_of_runtimeNames (h : (found.filter RuntimeName).Perm expected) (hname : RuntimeName name) :
    name ∈ found ↔ name ∈ expected := by
  rw [← h.mem_iff, List.mem_filter]
  exact (and_iff_left (decide_eq_true hname)).symm

theorem countP_of_runtimeNames {p : List Char → Bool} (h : (found.filter RuntimeName).Perm expected)
    (hp : ∀ name, p name = true → RuntimeName name) : found.countP p = expected.countP p := by
  rw [← h.countP_eq, List.countP_filter]
  apply List.countP_congr
  intro name _
  simpa using hp name

theorem BalancedNames.of_runtimeNames {libc : Libc} {shared : Bool} (hbalanced : BalancedNames libc shared expected)
    (h : (found.filter RuntimeName).Perm expected) : BalancedNames libc shared found := by
  have hbegin {name : List Char} (h : "crtbegin".toList <+: name) : RuntimeName name := .inl (.inr h)
  have hends {name : List Char} (h : "crtend".toList <+: name) : RuntimeName name := .inr (.inr h)
  have hinit : RuntimeName "crti.o".toList := by decide
  have hfini : RuntimeName "crtn.o".toList := by decide
  have hequal {file : List Char} (hfile : RuntimeName file) (name : List Char) (h : (name == file) = true) :
      RuntimeName name := by
    rwa [beq_iff_eq.mp h]
  constructor
  case init =>
    rw [mem_of_runtimeNames h hinit, mem_of_runtimeNames h hfini]
    exact hbalanced.init
  case unopened =>
    rw [mem_of_runtimeNames h hinit, mem_of_runtimeNames h hfini]
    exact hbalanced.unopened
  case frame =>
    have hnames {start : List Char} (hstart : ∀ name, start <+: name → RuntimeName name) :
        (∃ name ∈ found, start <+: name) ↔ ∃ name ∈ expected, start <+: name :=
      exists_congr fun name => and_congr_left fun hname => mem_of_runtimeNames h (hstart name hname)
    rw [hnames (fun _ => hbegin), hnames (fun _ => hends)]
    exact hbalanced.frame
  case init_once =>
    rw [countP_of_runtimeNames h (hequal hinit)]
    exact hbalanced.init_once
  case fini_once =>
    rw [countP_of_runtimeNames h (hequal hfini)]
    exact hbalanced.fini_once
  case begin_once =>
    rw [countP_of_runtimeNames h (fun name hname => hbegin (List.isPrefixOf_iff_prefix.mp hname))]
    exact hbalanced.begin_once
  case end_once =>
    rw [countP_of_runtimeNames h (fun name hname => hends (List.isPrefixOf_iff_prefix.mp hname))]
    exact hbalanced.end_once

end Found

theorem runtimeNames_args (hpe : r.profile.os.isPe = false)
    (hrest : ∀ token ∈ r.pathOptions ++ r.given, ¬ RuntimeName (lastName token)) :
    ((names r.args).filter RuntimeName).Perm
      (openingNames r.profile.libc r.isShared ++ closingNames r.profile.libc r.isShared) := by
  have hnone : (names (r.pathOptions ++ r.given)).filter RuntimeName = [] := by
    rw [List.filter_eq_nil_iff, names, List.forall_mem_map]
    simpa using hrest
  have hperm := ((args_perm hpe).map lastName).filter RuntimeName
  rw [List.append_assoc, List.map_append, List.filter_append, ← names, ← names, ← names, hnone, List.append_nil] at hperm
  exact hperm.trans runtimeNames_perm

theorem not_opensName_behind : ∀ token ∈ r.elfBody ++ r.elfLibraries ++ r.elfCLibrary ++ r.elfEnd ++ r.elfTail,
    ¬ OpensName (lastName token) := by
  have hinert : ∀ token ∈ r.inertTokens, ¬ OpensName (lastName token) := fun token ht hname =>
    inert_name token ht (.inl hname)
  have hends : ∀ token ∈ r.elfEnd, ¬ OpensName (lastName token) := fun token ht => (end_name token ht).2
  simp only [inertTokens, plainTokens, List.forall_mem_append] at hinert
  obtain ⟨⟨⟨⟨⟨⟨-, hbody⟩, hlibraries⟩, -⟩, -⟩, hlibrary⟩, htail⟩ := hinert
  simp only [List.forall_mem_append]
  exact ⟨⟨⟨⟨hbody, hlibraries⟩, hlibrary⟩, hends⟩, htail⟩

theorem not_closesName_ahead : ∀ token ∈ ["-flavor", "ld"] ++ r.elfOpening ++ r.hostedObjects ++ r.elfBody ++
    r.elfLibraries ++ r.elfCLibrary, ¬ ClosesName (lastName token) := by
  have hinert : ∀ token ∈ r.inertTokens, ¬ ClosesName (lastName token) := fun token ht hname =>
    inert_name token ht (.inr hname)
  have hobjects : ∀ token ∈ r.openingObjects ++ r.hostedObjects, ¬ ClosesName (lastName token) := fun token ht =>
    (opening_name token ht).2
  simp only [inertTokens, plainTokens, List.forall_mem_append] at hinert
  obtain ⟨⟨⟨⟨⟨⟨⟨⟨⟨hflavor, hsettings⟩, hentry⟩, houtput⟩, hbody⟩, hlibraries⟩, hstatic⟩, hloader⟩, hlibrary⟩, -⟩ := hinert
  obtain ⟨hopening, hhosted⟩ := List.forall_mem_append.mp hobjects
  simp only [elfOpening, List.forall_mem_append]
  exact ⟨⟨⟨⟨⟨hflavor, ⟨⟨⟨⟨hsettings, hstatic⟩, hloader⟩, hopening⟩, hentry⟩, houtput⟩, hhosted⟩, hbody⟩, hlibraries⟩,
    hlibrary⟩

/-- Where the objects of the C runtime stand in an ELF command. Paths and texts of the request apart, which it
repeats as they are, none of them is in another place. -/
structure RuntimeAround (r : LinkRequest) : Prop where
  args : r.args = ["-flavor", "ld"] ++ r.searchOptions ++ r.elfOpening ++ [r.output.text] ++ r.hostedObjects ++
    [r.object.text] ++ r.elfBody ++ r.exportsOptions ++ r.elfLibraries ++ r.elfCLibrary ++ r.elfEnd ++
    r.extraInputs.map r.expandInput ++ r.elfTail ++ r.ldflags
  made_of : r.args.Perm (r.placed ++ r.pathOptions ++ r.given)
  opens_before : ∀ token ∈ r.elfBody ++ r.elfLibraries ++ r.elfCLibrary ++ r.elfEnd ++ r.elfTail,
    ¬ OpensName (lastName token)
  closes_after : ∀ token ∈ ["-flavor", "ld"] ++ r.elfOpening ++ r.hostedObjects ++ r.elfBody ++ r.elfLibraries ++
    r.elfCLibrary, ¬ ClosesName (lastName token)
  balanced : BalancedNames r.profile.libc r.isShared (names r.placed)
  balanced_args : (∀ token ∈ r.pathOptions ++ r.given, ¬ RuntimeName (lastName token)) →
    BalancedNames r.profile.libc r.isShared (names r.args)

theorem runtimeAround (hpe : r.profile.os.isPe = false) : r.RuntimeAround := by
  constructor
  case args => rw [args_eq hpe, elfFront]
  case made_of => exact args_perm hpe
  case opens_before => exact not_opensName_behind
  case closes_after => exact not_closesName_ahead
  case balanced => exact (balancedNames _ _).of_runtimeNames runtimeNames_perm
  case balanced_args => exact fun hrest => (balancedNames _ _).of_runtimeNames (runtimeNames_args hpe hrest)

theorem runtime_balanced (hos : r.profile.os = .linux) : r.RuntimeAround := by
  have hpe : r.profile.os.isPe = false := by
    rw [hos]
    rfl
  exact runtimeAround hpe

theorem glibc_runtime_balanced : (bareLinux .glibc .executable).RuntimeAround ∧
    BalancedNames .glibc false (names (bareLinux .glibc .executable).args) ∧
    "/lib/crti.o" ∈ (bareLinux .glibc .executable).args := by
  have haround : (bareLinux .glibc .executable).RuntimeAround := runtime_balanced rfl
  refine ⟨haround, haround.balanced_args ?_, ?_⟩
  · decide +kernel
  · decide +kernel

theorem musl_library_unopened : "/lib/crtn.o" ∈ (bareLinux .musl .sharedLibrary).args ∧
    "crti.o".toList ∉ names (bareLinux .musl .sharedLibrary).args := by
  constructor <;> decide +kernel

end LinkRequest
end NativeBuild
