import NativeBuild.Proofs.Build.Separation
import NativeBuild.Proofs.Link.Tokens

namespace NativeBuild

theorem Path.isPrefix_of_child {mark : List Char} {base : Path} {name : String} (hmark : '/' ∉ mark)
    (hname : ¬ mark <+: name.toList) (h : mark <+: (base.child name).text.toList) :
    mark <+: base.text.toList ∧ base.text.toList <+: (base.child name).text.toList := by
  rw [child, join] at h ⊢
  split at h
  · exact absurd h hname
  · next hrelative =>
    rw [if_neg hrelative]
    split at h
    · exact absurd h hname
    · next hne =>
      rw [if_neg hne]
      split at h
      · next hends =>
        obtain ⟨front, hfront⟩ := List.getLast?_eq_some_iff.mp hends
        have hslash : '/' ∈ base.text.toList := by
          rw [show base.text.toList = front ++ ['/'] from hfront]
          exact List.mem_append_right _ (List.mem_singleton_self _)
        rw [if_pos hends]
        rw [String.toList_append] at h ⊢
        obtain hshort | hlong := List.prefix_or_prefix_of_prefix h (List.prefix_append base.text.toList _)
        · exact ⟨hshort, List.prefix_append _ _⟩
        · exact absurd (hlong.subset hslash) hmark
      · next hends =>
        rw [if_neg hends]
        rw [String.toList_append, String.toList_append, List.append_assoc] at h ⊢
        obtain hshort | hlong := List.prefix_or_prefix_of_prefix h (List.prefix_append base.text.toList _)
        · exact ⟨hshort, List.prefix_append _ _⟩
        · obtain ⟨rest, rfl⟩ := hlong
          have hrest : rest <+: '/' :: name.toList := (List.prefix_append_right_inj _).mp h
          cases rest with
          | nil =>
            rw [List.append_nil]
            exact ⟨List.prefix_rfl, List.prefix_append _ _⟩
          | cons c rest =>
            obtain ⟨rfl, -⟩ := List.cons_prefix_cons.mp hrest
            exact absurd (List.mem_append_right _ List.mem_cons_self) hmark

theorem not_isPrefix_append {mark : List Char} {front text : String} (hfront : ¬ mark <+: front.toList)
    (hfront' : ¬ front.toList <+: mark) : ¬ mark <+: (front ++ text).toList := by
  rw [String.toList_append]
  intro h
  exact (List.prefix_or_prefix_of_prefix h (List.prefix_append _ _)).elim hfront hfront'

namespace LinkRequest

def exportsMark (r : LinkRequest) : String := if r.profile.os.isPe then "/def:" else "--version-script="

def exportsOption (r : LinkRequest) (p : Path) : String :=
  if r.profile.os.isPe then definitionFile p else versionScript p

def givenTexts (r : LinkRequest) : List String :=
  [r.object.text, r.output.text, r.primaryDir.text, r.vendorDir.text] ++ r.extraInputs.map r.expandInput ++ r.ldflags

/-- A token that reads like an exports option because a given text does. -/
def Lookalike (r : LinkRequest) (token : String) : Prop :=
  ∃ text ∈ r.givenTexts, r.exportsMark.toList <+: text.toList ∧ text.toList <+: token.toList

variable {r : LinkRequest} {token : String}

theorem Lookalike.of_given (h : token ∈ r.givenTexts) (hmark : r.exportsMark.toList <+: token.toList) :
    r.Lookalike token := ⟨token, h, hmark, List.prefix_rfl⟩

theorem ElfToken.lookalike (hpe : r.profile.os.isPe = false) (hnone : r.exports = none) (h : r.ElfToken token)
    (hmark : r.exportsMark.toList <+: token.toList) : r.Lookalike token := by
  have hmark' : r.exportsMark = "--version-script=" := by rw [exportsMark, hpe]; rfl
  cases h with
  | word listed =>
    have hwords : ∀ token ∈ elfWords, ¬ "--version-script=".toList <+: token.toList := by decide +kernel
    exact absurd (hmark' ▸ hmark) (hwords token listed)
  | @primary file listed =>
    have hfiles : ∀ file ∈ primaryFiles, ¬ "--version-script=".toList <+: file.toList := by decide +kernel
    obtain ⟨hbase, htoken⟩ := Path.isPrefix_of_child (by decide) (hfiles file listed) (hmark' ▸ hmark)
    exact ⟨r.primaryDir.text, by simp [givenTexts], hmark' ▸ hbase, htoken⟩
  | @vendor file listed =>
    have hfiles : ∀ file ∈ vendorFiles, ¬ "--version-script=".toList <+: file.toList := by decide +kernel
    obtain ⟨hbase, htoken⟩ := Path.isPrefix_of_child (by decide) (hfiles file listed) (hmark' ▸ hmark)
    exact ⟨r.vendorDir.text, by simp [givenTexts], hmark' ▸ hbase, htoken⟩
  | libraryDir listed => exact absurd (hmark' ▸ hmark) (not_isPrefix_append (by decide) (by decide))
  | script => exact absurd (hmark' ▸ hmark) (not_isPrefix_append (by decide) (by decide))
  | wrap symbol => exact absurd (hmark' ▸ hmark) (not_isPrefix_append (by decide) (by decide))
  | object => exact .of_given (by simp [givenTexts]) hmark
  | output => exact .of_given (by simp [givenTexts]) hmark
  | exports shared listed =>
    rw [hnone] at listed
    cases listed
  | input listed => exact .of_given (List.mem_append_left _ (List.mem_append_right _ (List.mem_map_of_mem listed))) hmark
  | flag listed => exact .of_given (List.mem_append_right _ listed) hmark

theorem PeToken.lookalike (hpe : r.profile.os.isPe = true) (hnone : r.exports = none) (h : r.PeToken token)
    (hmark : r.exportsMark.toList <+: token.toList) : r.Lookalike token := by
  have hmark' : r.exportsMark = "/def:" := by rw [exportsMark, hpe]; rfl
  cases h with
  | word listed =>
    have hwords : ∀ token ∈ peWords, ¬ "/def:".toList <+: token.toList := by decide +kernel
    exact absurd (hmark' ▸ hmark) (hwords token listed)
  | object => exact .of_given (by simp [givenTexts]) hmark
  | output => exact absurd (hmark' ▸ hmark) (not_isPrefix_append (by decide) (by decide))
  | libraryDir listed => exact absurd (hmark' ▸ hmark) (not_isPrefix_append (by decide) (by decide))
  | exports image shared listed =>
    rw [hnone] at listed
    cases listed
  | flag listed => exact .of_given (List.mem_append_right _ listed) hmark

theorem lookalike_of_mem_args (hnone : r.exports = none) (h : token ∈ r.args)
    (hmark : r.exportsMark.toList <+: token.toList) : r.Lookalike token := by
  rw [args] at h
  cases hpe : r.profile.os.isPe with
  | true =>
    rw [hpe, if_pos rfl] at h
    exact (peToken_args token h).lookalike hpe hnone hmark
  | false =>
    rw [hpe, if_neg Bool.false_ne_true] at h
    exact (elfToken_args token h).lookalike hpe hnone hmark

def exportsOptions (r : LinkRequest) : List String :=
  if r.isShared then (r.exports.map r.exportsOption).toList else []

def unlisted (r : LinkRequest) : LinkRequest := { r with exports := none }

theorem lookalike_of_unlisted {tokens : List String} (h : r.unlisted.args = tokens) (ht : token ∈ tokens)
    (hmark : r.exportsMark.toList <+: token.toList) : r.Lookalike token := by
  rw [← h] at ht
  exact lookalike_of_mem_args (r := r.unlisted) rfl ht hmark

theorem peEntry_eq (hpe : r.profile.os.isPe = true) (hos : r.profile.os = .uefi → r.isShared = false) :
    r.peEntry = r.unlisted.peEntry ++ r.exportsOptions := by
  have hoption : r.exportsOption = definitionFile := by
    funext p
    rw [exportsOption, hpe]
    rfl
  rw [peEntry, peEntry, exportsOptions, hoption, show r.unlisted.profile = r.profile from rfl,
    show r.unlisted.isShared = r.isShared from rfl]
  split
  · next himage =>
    rw [hos himage, if_neg Bool.false_ne_true, List.append_nil]
  · split
    · rw [show (r.unlisted.exports.map definitionFile).toList = [] from rfl, List.append_nil]
      rfl
    · exact (List.append_nil _).symm

theorem elfKind_eq (hpe : r.profile.os.isPe = false) : r.elfKind = r.unlisted.elfKind ++ r.exportsOptions := by
  have hoption : r.exportsOption = versionScript := by
    funext p
    rw [exportsOption, hpe]
    rfl
  rw [elfKind, elfKind, exportsOptions, hoption, show r.unlisted.isShared = r.isShared from rfl]
  split
  · rw [show (r.unlisted.exports.map versionScript).toList = [] from rfl, List.append_nil]
    rfl
  · exact (List.append_nil _).symm

theorem exists_args_eq (hos : r.profile.os = .uefi → r.isShared = false) : ∃ front back,
    r.args = front ++ r.exportsOptions ++ back ∧ r.unlisted.args = front ++ back := by
  cases hpe : r.profile.os.isPe with
  | true =>
    let front := ["-flavor", "link", r.object.text, "/out:" ++ r.output.text] ++
      (if r.policy.deterministic then ["/Brepro"] else []) ++ r.libDirs.map ("/libpath:" ++ ·.text) ++ r.subsystem
    let back := ["/incremental:no"] ++ (if r.policy.debugInfo then ["/debug"] else []) ++ r.peRuntime ++ r.peSystem ++
      ["/opt:ref,icf", "/nodefaultlib:libcpmt.lib"] ++ r.ldflags
    refine ⟨front ++ r.unlisted.peEntry, back, ?_, ?_⟩
    · rw [args, if_pos hpe, peArgs, peHead, peEntry_eq hpe hos]
      simp only [front, back, List.append_assoc]
    · rw [args, if_pos (show r.unlisted.profile.os.isPe = true from hpe), peArgs, peHead]
      simp only [front, back, List.append_assoc]
      rfl
  | false =>
    let front := r.elfOptions ++ r.elfStartup ++ r.elfProgram
    let back := r.elfRuntime ++ commonLibraries ++ r.elfCLibrary ++ r.elfEnd ++ r.extraInputs.map r.expandInput ++
      r.elfTail ++ r.ldflags
    have hnot : ¬ r.profile.os.isPe = true := by simp [hpe]
    refine ⟨front ++ r.unlisted.elfKind, back, ?_, ?_⟩
    · rw [args, if_neg hnot, elfArgs, elfHead, elfKind_eq hpe]
      simp only [front, back, List.append_assoc]
    · rw [args, if_neg (show ¬ r.unlisted.profile.os.isPe = true from hnot), elfArgs, elfHead]
      simp only [front, back, List.append_assoc]
      rfl

end LinkRequest

structure ExportsLinked (c : BuildContext) : Prop where
  unwritten : c.paths.exports = none → ∀ a b, (Build.emitStage c a b).2 = b
  written : ∀ p, c.paths.exports = some p → ∀ a b a' b', Build.emitStage c a b = (.ok a', b') →
    ∃ output, a.output = some output ∧
      b'.files.read p = .ok (Text.encodeUtf8 (Exports.render c.profile.os output.exportedSymbols).toList)
  format : c.paths.exports ≠ none →
    Exports.render c.profile.os = if c.profile.os.isPe then Exports.renderDefinition else Exports.renderScript
  linked : ∃ front back,
    c.linkCommand.args = front ++ (c.paths.exports.map c.linkRequest.exportsOption).toList ++ back ∧
      ∀ token ∈ front ++ back, c.linkRequest.exportsMark.toList <+: token.toList → c.linkRequest.Lookalike token

namespace Build

variable {c : BuildContext} {a a' : Artifacts} {b b' : Bench}

theorem emitStage_of_no_exports (h : c.paths.exports = none) : (emitStage c a b).2 = b := by
  rw [emitStage, h]
  split
  · rfl
  · split <;> rfl

theorem read_exports_of_emitStage {p : Path} (hexports : c.paths.exports = some p)
    (h : emitStage c a b = (.ok a', b')) : ∃ output, a.output = some output ∧
      b'.files.read p = .ok (Text.encodeUtf8 (Exports.render c.profile.os output.exportedSymbols).toList) := by
  obtain ⟨output, houtput, -, -, hwritten⟩ := emitStage_eq_ok h
  have htext := hwritten p hexports
  obtain ⟨executable, hlookup⟩ := FileTree.lookup_writeText (congrArg Prod.fst htext)
  rw [htext] at hlookup
  exact ⟨output, houtput, FileTree.read_eq_ok_iff.mpr ⟨executable, hlookup⟩⟩

end Build

theorem Exports.render_eq {os : Os} (h : os ≠ .uefi) :
    render os = if os.isPe then renderDefinition else renderScript := by
  funext symbols
  cases os with
  | windows => rfl
  | linux => rfl
  | uefi => exact absurd rfl h

theorem BuildOptions.prepared_exportsLinked {o : BuildOptions} {t : FileTree} {cwd : Path} {tools : Tools}
    {host : Host} {c : BuildContext} (h : o.prepare t cwd tools host = .ok c)
    (hos : c.profile.os = .uefi → c.policy.linkType ≠ .sharedLibrary) :
    (c.paths.exports.isSome ↔ c.policy.linkType = .sharedLibrary) ∧ ExportsLinked c := by
  have hexports : c.paths.exports.isSome ↔ c.policy.linkType = .sharedLibrary := by
    rw [paths_of_prepare h, BuildPaths.ofOutput]
    split <;> simp [*]
  have hoptions : c.linkRequest.exportsOptions = (c.paths.exports.map c.linkRequest.exportsOption).toList := by
    have hshared : c.linkRequest.isShared = true ↔ c.paths.exports.isSome := by
      rw [hexports]
      exact beq_iff_eq
    rw [LinkRequest.exportsOptions]
    split
    · rfl
    · next hnot =>
      rw [hshared, Option.not_isSome_iff_eq_none] at hnot
      rw [hnot]
      rfl
  have himage (huefi : c.linkRequest.profile.os = .uefi) : c.linkRequest.isShared = false :=
    beq_eq_false_iff_ne.mpr (hos huefi)
  obtain ⟨front, back, hargs, hunlisted⟩ := LinkRequest.exists_args_eq himage
  refine ⟨hexports, ?_⟩
  constructor
  case unwritten => exact fun hnone _ _ => Build.emitStage_of_no_exports hnone
  case written => exact fun p hp _ _ _ _ hstage => Build.read_exports_of_emitStage hp hstage
  case format =>
    intro hsome
    apply Exports.render_eq
    intro huefi
    exact hos huefi (hexports.mp (Option.isSome_iff_ne_none.mpr hsome))
  case linked =>
    rw [hoptions] at hargs
    exact ⟨front, back, hargs, fun token ht hmark => LinkRequest.lookalike_of_unlisted hunlisted ht hmark⟩

def BuildOptions.sharedLibrary (os : String) : BuildOptions where
  inputs := [⟨"/app.cs"⟩]
  output := some ⟨"/app.image"⟩
  linkType := some .sharedLibrary
  target := { os := some os, arch := some "x64" }
  flags := { stdlib := .none }

theorem BuildOptions.windows_exportsLinked :
    ∃ c, (sharedLibrary "windows").prepare .empty ⟨"/"⟩ .bare {} = .ok c ∧
      c.paths.exports = some ⟨"/app.def"⟩ ∧ "/def:/app.def" ∈ c.linkCommand.args ∧ ExportsLinked c := by
  have hfacts : ((sharedLibrary "windows").prepare .empty ⟨"/"⟩ .bare {}).toOption.any (fun c =>
      decide (c.profile.os ≠ .uefi) && decide (c.paths.exports = some ⟨"/app.def"⟩) &&
        decide ("/def:/app.def" ∈ c.linkCommand.args)) = true := by decide +kernel
  cases h : (sharedLibrary "windows").prepare .empty ⟨"/"⟩ .bare {} with
  | error e =>
    rw [h] at hfacts
    cases hfacts
  | ok c =>
    rw [h] at hfacts
    simp only [Except.toOption, Option.any_some, Bool.and_eq_true, decide_eq_true_eq] at hfacts
    obtain ⟨⟨hos, hexports⟩, hoption⟩ := hfacts
    exact ⟨c, rfl, hexports, hoption, (prepared_exportsLinked h (fun huefi => absurd huefi hos)).2⟩

theorem BuildOptions.uefi_exports_unlinked :
    ∃ c, (sharedLibrary "uefi").prepare .empty ⟨"/"⟩ .bare {} = .ok c ∧ c.links = true ∧
      c.paths.exports = some ⟨"/app.txt"⟩ ∧
      (Build.run c .unlinked ⟨"/w"⟩ .empty).2.files.isFile ⟨"/app.txt"⟩ = true ∧
      ∀ token ∈ c.linkCommand.args, ¬ "/app.txt".toList <:+ token.toList := by
  have hfacts : ((sharedLibrary "uefi").prepare .empty ⟨"/"⟩ .bare {}).toOption.any (fun c =>
      c.links && decide (c.paths.exports = some ⟨"/app.txt"⟩) &&
        (Build.run c .unlinked ⟨"/w"⟩ .empty).2.files.isFile ⟨"/app.txt"⟩ &&
        decide (∀ token ∈ c.linkCommand.args, ¬ "/app.txt".toList <:+ token.toList)) = true := by decide +kernel
  cases h : (sharedLibrary "uefi").prepare .empty ⟨"/"⟩ .bare {} with
  | error e =>
    rw [h] at hfacts
    cases hfacts
  | ok c =>
    rw [h] at hfacts
    simp only [Except.toOption, Option.any_some, Bool.and_eq_true, decide_eq_true_eq] at hfacts
    obtain ⟨⟨⟨hlinks, hexports⟩, hwritten⟩, hnone⟩ := hfacts
    exact ⟨c, rfl, hlinks, hexports, hwritten, hnone⟩

end NativeBuild
