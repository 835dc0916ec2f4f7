import NativeBuild.Proofs.Build.Keeping
import NativeBuild.Proofs.Build.Linking
import NativeBuild.Proofs.Files.Outside
import Mathlib.Logic.Relation

namespace NativeBuild.Build

open FileTree

def Lossless (c : BuildContext) (w : Workshop) (dir : Path) (s t : FileTree) : Prop :=
  HelperStep c w dir s t ∨ ∀ p, s.isFile p = true → t.isFile p = true

/-- Nothing but the build itself interferes with its intermediate files: the working directory is made
and apart from them, no helper goes to another directory, the code generator names the object that it
was asked for, the tools leave object and exports as they are, and the exports are no file that is
patched. -/
structure Undisturbed (c : BuildContext) (w : Workshop) (dir : Path) (files : FileTree) : Prop where
  made : (files.makeDirectory dir).1 = .ok ()
  outside : ∀ p ∈ intermediates c,
    p.Outside files.workingDirectory (dir.placeFrom files.workingDirectory)
  steady : ∀ s t, HelperStep c w dir s t → t.workingDirectory = s.workingDirectory
  object : ∀ trace t il program scan output,
    (w.generate trace t (c.codegenRequest il) program scan).result = .ok output → output.object = c.paths.object
  tools : ∀ trace t, ∀ command ∈ c.commands, ∀ p ∈ intermediates c,
    (w.execute trace t command).files.lookup p = t.lookup p
  apart : ∀ exports, c.paths.exports = some exports → ∀ p ∈ c.patchTargets,
    p.placeFrom files.workingDirectory ≠ exports.placeFrom files.workingDirectory

variable {c : BuildContext} {w : Workshop} {dir : Path} {a a' : Artifacts} {b b' : Bench}
  {stages : List Stage} {files : FileTree}

theorem runStages_lossless (hkeep : c.policy.keepObject = true) {t : FileTree}
    (h : Relation.ReflTransGen (Lossless c w dir) t b.files) :
    Relation.ReflTransGen (Lossless c w dir) t (runStages c w dir stages a b).2.files := by
  have hkeeps : Keeps c w dir (Relation.ReflTransGen (Lossless c w dir) t) := by
    constructor
    case helpers => exact fun r s hstep hr => hr.tail (.inl hstep)
    case write => exact fun exports _ text r hr => hr.tail (.inr fun p => isFile_writeText)
    case patch => exact fun r hr => hr.tail (.inr fun p hp => (Patch.applyAll_alike.isFile p).trans hp)
    case remove =>
      intro hremoves
      rw [hkeep] at hremoves
      cases hremoves
  exact hkeeps.runStages h

theorem isFile_discard_self (hkeep : c.policy.keepObject = false) (p : Path) :
    (discard c p b).files.isFile p = false := by
  rw [discard, hkeep]
  exact isFile_removeQuietly_self

theorem not_isFile_discard {p p' : Path} (h : b.files.isFile p = false) :
    (discard c p' b).files.isFile p = false := by
  rw [discard]
  split
  · exact h
  · exact not_isFile_removeQuietly h

theorem object_gone_of_failure (hkeep : c.policy.keepObject = false)
    (h : (runStages c w dir stages a b).1.failure ≠ none) :
    (runStages c w dir stages a b).2.files.isFile c.paths.object = false := by
  induction stages generalizing a b with
  | nil => exact absurd rfl h
  | cons stage rest ih =>
    rw [runStages] at h ⊢
    split at h
    · next hruns =>
      rw [if_pos hruns]
      split at h
      · exact isFile_discard_self hkeep _
      · exact ih h
    · next hruns =>
      rw [if_neg hruns]
      exact ih h

theorem object_gone_of_link (hkeep : c.policy.keepObject = false) :
    (linkStage c w a b).2.files.isFile c.paths.object = false := by
  rw [linkStage]
  split
  · exact isFile_discard_self hkeep _
  · have hgone := isFile_discard_self (b := (b.execute w c.linkCommand).2) hkeep c.paths.object
    dsimp only
    split
    · rw [discardExports]
      split
      · exact not_isFile_discard (isFile_discard_self hkeep _)
      · exact isFile_discard_self hkeep _
    · exact isFile_discard_self hkeep _

theorem exports_gone_of_link (hkeep : c.policy.keepObject = false) {exports : Path}
    (hexports : c.paths.exports = some exports) (h : linkStage c w a b = (.ok a', b')) :
    b'.files.isFile exports = false := by
  rw [linkStage] at h
  split at h
  · cases h
  · dsimp only at h
    split at h
    · obtain ⟨-, rfl⟩ := Prod.mk.inj h
      rw [discardExports, hexports]
      exact isFile_discard_self hkeep _
    · cases h

theorem not_isFile_fixups {p : Path}
    (htools : ∀ trace t, ∀ command ∈ c.commands, (w.execute trace t command).files.lookup p = t.lookup p)
    (h : b.files.isFile p = false) :
    (runStages c w dir [.postLinkFixups] a b).2.files.isFile p = false := by
  have hfixups : StageKeeps c w dir .postLinkFixups (fun t => t.isFile p = false) := by
    apply fixupStage_keeps
    intro trace t command hstep ht
    rwa [FileTree.isFile, htools trace t command (List.mem_cons_of_mem _ hstep)]
  exact runStages_keeps _ (List.forall_mem_singleton.mpr hfixups) (fun _ _ => not_isFile_removeQuietly) h

theorem codegenStage_output (h : codegenStage c w a b = (.ok a', b')) :
    ∃ trace t il program scan output,
      (w.generate trace t (c.codegenRequest il) program scan).result = .ok output ∧ a'.output = some output := by
  rw [codegenStage] at h
  cases hrequest : requestFor c a with
  | error e =>
    rw [hrequest] at h
    cases h
  | ok request =>
    obtain ⟨il, rfl⟩ := requestFor_eq_ok hrequest
    rw [hrequest] at h
    dsimp only at h
    split at h
    · cases h
    · next program b₁ _ =>
      split at h
      · cases h
      · next output b₂ hgenerate =>
        obtain ⟨ha, -⟩ := Prod.mk.inj h
        refine ⟨b₁.trace, b₁.files, il, program, a.scan, output, ?_, ?_⟩
        · exact congrArg Prod.fst hgenerate
        · rw [← Except.ok.inj ha]

def codegenOutput (c : BuildContext) (w : Workshop) (dir : Path) (files : FileTree) : Option CodegenOutput :=
  (through c w dir Stage.beforeEmit {} (opening dir files)).bind (·.1.output)

theorem emitStage_eq_ok (h : emitStage c a b = (.ok a', b')) :
    ∃ output, a.output = some output ∧ b.files.isFile output.object = true ∧
      (c.paths.exports = none → b'.files = b.files) ∧
      ∀ exports, c.paths.exports = some exports →
        b.files.writeText exports (Exports.render c.profile.os output.exportedSymbols) = (.ok (), b'.files) := by
  rw [emitStage] at h
  cases houtput : a.output with
  | none =>
    rw [houtput] at h
    cases h
  | some output =>
    rw [houtput] at h
    dsimp only at h
    cases hfile : b.files.isFile output.object with
    | false =>
      rw [hfile] at h
      cases h
    | true =>
      refine ⟨output, rfl, hfile, ?_⟩
      rw [hfile, if_pos rfl] at h
      split at h
      · next hnone =>
        obtain ⟨-, rfl⟩ := Prod.mk.inj h
        exact ⟨fun _ => rfl, fun exports hexports => by rw [hnone] at hexports; cases hexports⟩
      · next exports hexports =>
        refine ⟨fun hnone => (by rw [hexports] at hnone; cases hnone), fun exports' hexports' => ?_⟩
        obtain rfl := Option.some.inj (hexports.symm.trans hexports')
        cases hwritten : b.files.writeText exports (Exports.render c.profile.os output.exportedSymbols) with
        | mk result files =>
          rw [hwritten] at h
          cases result with
          | error e => cases h
          | ok _ =>
            obtain ⟨-, rfl⟩ := Prod.mk.inj h
            rfl

theorem through_beforeEmit_output (h : through c w dir Stage.beforeEmit a b = some (a', b')) :
    ∃ trace t il program scan output,
      (w.generate trace t (c.codegenRequest il) program scan).result = .ok output ∧ a'.output = some output := by
  rw [Stage.beforeEmit_eq, through_append_eq_some_iff] at h
  obtain ⟨a₁, b₁, -, hlast⟩ := h
  obtain ⟨a₂, b₂, hperform, hrest⟩ := (through_cons_of_runs rfl).mp hlast
  obtain ⟨rfl, rfl⟩ := Prod.mk.inj (Option.some.inj hrest)
  exact codegenStage_output hperform

theorem fromPatch_keeps (holds : FileTree → Prop)
    (hpatch : ∀ t : FileTree, holds t → holds (Patch.applyAll t c.patchTargets).2)
    (htools : ∀ trace t, ∀ command ∈ c.commands, holds t → holds (w.execute trace t command).files)
    (hobject : ∀ t : FileTree, holds t → holds (t.removeQuietly c.paths.object))
    (hlink : ¬ (c.policy.keepObject = false ∧
      (Stage.link, Outcome.ran) ∈ (runStages c w dir (.platformPatch :: Stage.fromLink) a b).1.stages))
    (h : holds b.files) :
    holds (runStages c w dir (.platformPatch :: Stage.fromLink) a b).2.files := by
  have hpatchStage : StageKeeps c w dir .platformPatch holds := patchStage_keeps hpatch
  have hfixups : StageKeeps c w dir .postLinkFixups holds :=
    fixupStage_keeps (fun trace t command hstep => htools trace t command (List.mem_cons_of_mem _ hstep))
  have hlinker (trace : Trace) (t : FileTree) := htools trace t c.linkCommand List.mem_cons_self
  cases hkeep : c.policy.keepObject with
  | true =>
    have hnone {P : Prop} : c.policy.keepObject = false → P := fun hk => by rw [hkeep] at hk; cases hk
    refine runStages_keeps holds (fun stage hstage => ?_) (fun _ => hobject) h
    rw [Stage.fromLink_eq] at hstage
    simp only [List.mem_cons, List.not_mem_nil, or_false] at hstage
    obtain rfl | rfl | rfl := hstage
    · exact hpatchStage
    · exact linkStage_keeps hlinker hnone
    · exact hfixups
  | false =>
    have hnotRan : (Stage.link, Outcome.ran) ∉
        (runStages c w dir ([Stage.platformPatch] ++ Stage.fromLink) a b).1.stages := fun hran => hlink ⟨hkeep, hran⟩
    have honly : ∀ stage ∈ [Stage.platformPatch], StageKeeps c w dir stage holds :=
      List.forall_mem_singleton.mpr hpatchStage
    show holds (runStages c w dir ([Stage.platformPatch] ++ Stage.fromLink) a b).2.files
    cases hthrough : through c w dir [.platformPatch] a b with
    | none =>
      rw [(runStages_of_not_through _ hthrough).1]
      exact runStages_keeps holds honly (fun _ => hobject) h
    | some m =>
      obtain ⟨a', b'⟩ := m
      have hpatched := through_keeps holds honly h hthrough
      rw [runStages_of_through hthrough] at hnotRan ⊢
      cases hlinks : c.links with
      | false =>
        rw [runStages_fromLink_skipped c w dir a' b' hlinks]
        exact hpatched
      | true =>
        have hruns : c.runs .link = true := hlinks
        rw [Stage.fromLink_eq] at hnotRan ⊢
        cases hstage : linkStage c w a' b' with
        | mk result b₁ =>
          cases result with
          | ok a₁ =>
            rw [runStages_cons_of_ok hruns hstage] at hnotRan
            simp at hnotRan
          | error e =>
            rw [runStages_cons_of_error hruns hstage]
            exact discard_keeps (fun _ => hobject) (linkStage_keeps_of_error hlinker hobject hstage hpatched)

theorem runStages_workingDirectory
    (hsteady : ∀ s t, HelperStep c w dir s t → t.workingDirectory = s.workingDirectory) :
    (runStages c w dir stages a b).2.files.workingDirectory = b.files.workingDirectory := by
  have hkeeps : Keeps c w dir (fun t => t.workingDirectory = b.files.workingDirectory) := by
    constructor
    case helpers => exact fun s t hstep hs => (hsteady s t hstep).trans hs
    case write => exact fun exports _ text t ht => workingDirectory_writeText.trans ht
    case patch => exact fun t ht => Patch.applyAll_alike.workingDirectory.trans ht
    case remove => exact fun _ p _ t ht => workingDirectory_removeQuietly.trans ht
  exact hkeeps.runStages rfl

namespace Undisturbed

variable (h : Undisturbed c w dir files)

include h

theorem report_run : (run c w dir files).1 = (runStages c w dir Stage.all {} (opening dir files)).1 := by
  rw [run_of_made h.made]

theorem trace_run : (run c w dir files).2.trace = (runStages c w dir Stage.all {} (opening dir files)).2.trace := by
  rw [run_of_made h.made]

theorem files_run :
    (run c w dir files).2.files = clear (runStages c w dir Stage.all {} (opening dir files)).2.files dir := by
  rw [run_of_made h.made]

theorem workingDirectory_last :
    (runStages c w dir Stage.all {} (opening dir files)).2.files.workingDirectory = files.workingDirectory :=
  (runStages_workingDirectory h.steady).trans workingDirectory_makeDirectory

theorem lookup_run {p : Path} (hp : p ∈ intermediates c) :
    (run c w dir files).2.files.lookup p =
      (runStages c w dir Stage.all {} (opening dir files)).2.files.lookup p := by
  have hclear := sameOutside_clear (runStages c w dir Stage.all {} (opening dir files)).2.files dir
  have hcwd := h.workingDirectory_last
  have houtside := h.outside p hp
  rw [← hcwd] at houtside
  rw [h.files_run]
  exact hclear.lookup houtside

theorem isFile_run {p : Path} (hp : p ∈ intermediates c) :
    (run c w dir files).2.files.isFile p =
      (runStages c w dir Stage.all {} (opening dir files)).2.files.isFile p := by
  rw [FileTree.isFile, FileTree.isFile, h.lookup_run hp]

theorem not_isFile_object (hkeep : c.policy.keepObject = false)
    (hdone : (run c w dir files).1.failure ≠ none ∨ c.linkCommand ∈ (run c w dir files).2.trace.commands) :
    (run c w dir files).2.files.isFile c.paths.object = false := by
  rw [h.report_run, h.trace_run] at hdone
  rw [h.isFile_run object_mem]
  obtain hfailure | hcommand := hdone
  · exact object_gone_of_failure hkeep hfailure
  · obtain ⟨e, he, found, hran⟩ := Trace.mem_commands_iff.mp hcommand
    obtain ⟨hlinks, a', b', hthrough, -⟩ := through_of_ran rfl he hran
    rw [Stage.all_eq_append, runStages_of_through hthrough, Stage.fromLink_eq]
    exact runStages_cons_keeps (fun t => t.isFile c.paths.object = false) hlinks
      (fun _ _ => not_isFile_removeQuietly) (object_gone_of_link hkeep)
      (fun _ _ => not_isFile_fixups (fun trace t command hasked => h.tools trace t command hasked _ object_mem))

theorem not_isFile_exports (hkeep : c.policy.keepObject = false)
    (hran : (Stage.link, Outcome.ran) ∈ (run c w dir files).1.stages) {exports : Path}
    (hexports : c.paths.exports = some exports) : (run c w dir files).2.files.isFile exports = false := by
  have hsplit : Stage.all = Stage.beforeLink ++ Stage.link :: [.postLinkFixups] := by decide
  rw [h.report_run, hsplit] at hran
  rw [h.isFile_run (exports_mem hexports), hsplit]
  obtain ⟨hruns, a₁, b₁, a₂, b₂, hthrough, hperform⟩ := through_of_mem_ran (by decide) hran
  rw [runStages_of_through hthrough, runStages_cons_of_ok hruns hperform]
  exact not_isFile_fixups (fun trace t command hasked => h.tools trace t command hasked _ (exports_mem hexports))
    (exports_gone_of_link hkeep hexports hperform)

theorem emitted (hthrough : through c w dir Stage.beforePatch {} (opening dir files) = some (a, b)) :
    b.files.isFile c.paths.object = true ∧ ∀ exports, c.paths.exports = some exports →
      ∃ output executable, codegenOutput c w dir files = some output ∧ b.files.lookup exports =
        .ok (.file (Text.encodeUtf8 (Exports.render c.profile.os output.exportedSymbols).toList) executable) := by
  rw [Stage.beforePatch_eq, through_append_eq_some_iff] at hthrough
  obtain ⟨a₀, b₀, hbefore, hlast⟩ := hthrough
  obtain ⟨a₁, b₁, hperform, hrest⟩ := (through_cons_of_runs rfl).mp hlast
  obtain ⟨rfl, rfl⟩ := Prod.mk.inj (Option.some.inj hrest)
  obtain ⟨output, houtput, hfile, hnone, hsome⟩ := emitStage_eq_ok hperform
  obtain ⟨trace, t, il, program, scan, output', hresult, houtput'⟩ := through_beforeEmit_output hbefore
  obtain rfl := Option.some.inj (houtput.symm.trans houtput')
  rw [h.object _ _ _ _ _ _ hresult] at hfile
  constructor
  · cases hexports : c.paths.exports with
    | none => rwa [hnone hexports]
    | some exports =>
      rw [← show _ = b₁.files from congrArg Prod.snd (hsome exports hexports)]
      exact isFile_writeText hfile
  · intro exports hexports
    have hwritten := hsome exports hexports
    obtain ⟨executable, hlookup⟩ := lookup_writeText (congrArg Prod.fst hwritten)
    rw [show _ = b₁.files from congrArg Prod.snd hwritten] at hlookup
    exact ⟨output, executable, by rw [codegenOutput, hbefore]; exact houtput, hlookup⟩

theorem isFile_object (hnoLink : c.policy.noLink = true) (hsuccess : (run c w dir files).1.failure = none) :
    (run c w dir files).2.files.isFile c.paths.object = true := by
  have hlinks : c.links = false := by rw [BuildContext.links, hnoLink]; rfl
  rw [h.report_run, Stage.all_eq_beforePatch] at hsuccess
  rw [h.isFile_run object_mem, Stage.all_eq_beforePatch]
  cases hthrough : through c w dir Stage.beforePatch {} (opening dir files) with
  | none =>
    obtain ⟨hsame, f, hf⟩ := runStages_of_not_through (.platformPatch :: Stage.fromLink) hthrough
    rw [hsame, hf] at hsuccess
    cases hsuccess
  | some m =>
    obtain ⟨a', b'⟩ := m
    have hunlinked : (runStages c w dir (.platformPatch :: Stage.fromLink) a' b').2 = b' := by
      have hskipped : c.runs .platformPatch = false := by rw [BuildContext.runs, hlinks]; rfl
      rw [runStages_cons_of_not_runs hskipped, runStages_fromLink_skipped c w dir a' b' hlinks]
    rw [runStages_of_through hthrough, hunlinked]
    exact (h.emitted hthrough).1

theorem read_exports (hemitted : (Stage.objectEmit, Outcome.ran) ∈ (run c w dir files).1.stages)
    (hlink : ¬ (c.policy.keepObject = false ∧ (Stage.link, Outcome.ran) ∈ (run c w dir files).1.stages))
    {exports : Path} (hexports : c.paths.exports = some exports) :
    ∃ output, codegenOutput c w dir files = some output ∧ (run c w dir files).2.files.read exports =
      .ok (Text.encodeUtf8 (Exports.render c.profile.os output.exportedSymbols).toList) := by
  rw [h.report_run] at hemitted hlink
  rw [Stage.all_eq_beforeEmit] at hemitted
  obtain ⟨hruns, a₀, b₀, a₁, b₁, hbefore, hperform⟩ := through_of_mem_ran (by decide) hemitted
  have hthrough : through c w dir Stage.beforePatch {} (opening dir files) = some (a₁, b₁) := by
    rw [Stage.beforePatch_eq, through_append_eq_some_iff]
    exact ⟨a₀, b₀, hbefore, (through_cons_of_runs hruns).mpr ⟨a₁, b₁, hperform, rfl⟩⟩
  obtain ⟨output, executable, houtput, hlookup⟩ := (h.emitted hthrough).2 exports hexports
  refine ⟨output, houtput, read_eq_ok_iff.mpr ⟨executable, ?_⟩⟩
  have hcwd : b₁.files.workingDirectory = files.workingDirectory := by
    rw [← snd_runStages_of_through hthrough]
    exact (runStages_workingDirectory h.steady).trans workingDirectory_makeDirectory
  rw [h.lookup_run (exports_mem hexports), Stage.all_eq_beforePatch, runStages_of_through hthrough]
  rw [Stage.all_eq_beforePatch, runStages_of_through hthrough] at hlink
  have hafter : ¬ (c.policy.keepObject = false ∧
      (Stage.link, Outcome.ran) ∈ (runStages c w dir (.platformPatch :: Stage.fromLink) a₁ b₁).1.stages) :=
    fun hran => hlink ⟨hran.1, List.mem_append_right _ hran.2⟩
  have hapart := h.apart exports hexports
  refine (fromPatch_keeps
    (fun t => t.workingDirectory = files.workingDirectory ∧ t.lookup exports = .ok (.file _ executable))
    ?_ ?_ ?_ hafter ⟨hcwd, hlookup⟩).2
  · rintro t ⟨ht, hfile⟩
    exact ⟨Patch.applyAll_alike.workingDirectory.trans ht,
      Patch.lookup_applyAll_of_ne hfile (fun p hp => ht ▸ hapart p hp)⟩
  · rintro trace t command hasked ⟨ht, hfile⟩
    exact ⟨(h.steady _ _ (.execute trace hasked)).trans ht,
      (h.tools trace t command hasked exports (exports_mem hexports)).trans hfile⟩
  · rintro t ⟨ht, hfile⟩
    exact ⟨workingDirectory_removeQuietly.trans ht,
      lookup_removeQuietly_of_ne hfile (ht ▸ hapart _ List.mem_cons_self)⟩

end Undisturbed

theorem isFile_run_of_keep {c : BuildContext} (h : Undisturbed c w dir files) (hkeep : c.policy.keepObject = true)
    {p : Path} (hp : p ∈ intermediates c)
    (hhelpers : ∀ s t, HelperStep c w dir s t → s.isFile p = true → t.isFile p = true) {xs ys : List Stage}
    {stage : Stage} (hall : Stage.all = xs ++ stage :: ys) (hruns : c.runs stage = true)
    (hthrough : through c w dir xs {} (opening dir files) = some (a, b))
    (hfile : (perform c w dir stage a b).2.files.isFile p = true) :
    (run c w dir files).2.files.isFile p = true := by
  have hlossless {s t : FileTree} (hst : Relation.ReflTransGen (Lossless c w dir) s t) (hs : s.isFile p = true) :
      t.isFile p = true := by
    induction hst with
    | refl => exact hs
    | tail _ hlast ih => exact hlast.elim (fun hstep => hhelpers _ _ hstep ih) (fun hkept => hkept p ih)
  have hremove : c.policy.keepObject = false →
      ∀ t : FileTree, t.isFile p = true → (t.removeQuietly c.paths.object).isFile p = true := by
    intro hremoves
    rw [hkeep] at hremoves
    cases hremoves
  rw [h.isFile_run hp, hall, runStages_of_through hthrough]
  exact runStages_cons_keeps (fun t => t.isFile p = true) hruns hremove hfile
    (fun _ _ => hlossless (runStages_lossless hkeep .refl))

structure IntermediatesSettled (c : BuildContext) (w : Workshop) (dir : Path) (files : FileTree) : Prop where
  lossless : c.policy.keepObject = true → Relation.ReflTransGen (Lossless c w dir) (opening dir files).files
    (runStages c w dir Stage.all {} (opening dir files)).2.files
  kept : c.policy.keepObject = true → ∀ p ∈ intermediates c,
    (∀ s t, HelperStep c w dir s t → s.isFile p = true → t.isFile p = true) →
      ∀ xs stage ys, Stage.all = xs ++ stage :: ys → c.runs stage = true →
        ∀ a b, through c w dir xs {} (opening dir files) = some (a, b) →
          (perform c w dir stage a b).2.files.isFile p = true → (run c w dir files).2.files.isFile p = true
  objectRemoved : c.policy.keepObject = false →
    ((run c w dir files).1.failure ≠ none ∨ c.linkCommand ∈ (run c w dir files).2.trace.commands) →
      (run c w dir files).2.files.isFile c.paths.object = false
  objectPresent : c.policy.noLink = true → (run c w dir files).1.failure = none →
    (run c w dir files).2.files.isFile c.paths.object = true
  exportsRemoved : c.policy.keepObject = false → (Stage.link, Outcome.ran) ∈ (run c w dir files).1.stages →
    ∀ exports, c.paths.exports = some exports → (run c w dir files).2.files.isFile exports = false
  exportsLeft : (Stage.objectEmit, Outcome.ran) ∈ (run c w dir files).1.stages →
    ¬ (c.policy.keepObject = false ∧ (Stage.link, Outcome.ran) ∈ (run c w dir files).1.stages) →
      ∀ exports, c.paths.exports = some exports → ∃ output, codegenOutput c w dir files = some output ∧
        (run c w dir files).2.files.read exports =
          .ok (Text.encodeUtf8 (Exports.render c.profile.os output.exportedSymbols).toList)

theorem intermediates_settled (h : Undisturbed c w dir files) : IntermediatesSettled c w dir files where
  lossless hkeep := runStages_lossless hkeep .refl
  kept hkeep _ hp hhelpers _ _ _ hall hruns _ _ hthrough hfile :=
    isFile_run_of_keep h hkeep hp hhelpers hall hruns hthrough hfile
  objectRemoved hkeep hdone := h.not_isFile_object hkeep hdone
  objectPresent hnoLink hsuccess := h.isFile_object hnoLink hsuccess
  exportsRemoved hkeep hran _ hexports := h.not_isFile_exports hkeep hran hexports
  exportsLeft hemitted hlink _ hexports := h.read_exports hemitted hlink hexports

end NativeBuild.Build

namespace NativeBuild

def BuildContext.library : BuildContext where
  profile := ⟨.linux, .x64, .glibc, []⟩
  policy := Policy.resolve { linkType := .sharedLibrary, stdlib := .none } ⟨.linux, .x64, .glibc, []⟩
  tools := .bare
  paths := BuildPaths.ofOutput ⟨"/app.so"⟩ ⟨.linux, .x64, .glibc, []⟩ .sharedLibrary none false
  libDirs := [⟨"/lib"⟩]
  sources := [⟨"/app.cs"⟩]
  references := []
  runtimeReferences := ∅
  defines := []
  langVersion := none
  ldflags := []
  extraInputs := []

def Workshop.unlinked : Workshop where
  compile _ files request := ⟨.ok ⟨request.output, []⟩, files, {}⟩
  load _ files _ := ⟨.ok ({} : ProgramDocument).graph, files, {}⟩
  generate _ files request _ _ := ⟨.ok ⟨request.object, ["entry"]⟩, (files.write request.object []).2, {}⟩
  execute _ files _ := ⟨.ok 1, files, {}⟩

theorem Build.library_undisturbed : Undisturbed .library .unlinked ⟨"/w"⟩ .empty where
  made := by decide +kernel
  outside := by decide +kernel
  steady := by
    intro s t hstep
    cases hstep with
    | compile trace => rfl
    | load trace il => rfl
    | generate trace il program scan => exact FileTree.workingDirectory_write
    | execute trace asked => rfl
  object := by
    intro trace t il program scan output hresult
    rw [← Except.ok.inj hresult]
    rfl
  tools := fun _ _ _ _ _ _ => rfl
  apart := by
    intro exports hexports
    obtain rfl := Option.some.inj hexports
    decide +kernel

theorem Build.library_intermediates_settled :
    IntermediatesSettled .library .unlinked ⟨"/w"⟩ .empty ∧
      (run .library .unlinked ⟨"/w"⟩ .empty).1.exitCode = 1 ∧
      (run .library .unlinked ⟨"/w"⟩ .empty).2.files.isFile ⟨"/app.o"⟩ = false ∧
      (run .library .unlinked ⟨"/w"⟩ .empty).2.files.isFile ⟨"/app.txt"⟩ = true := by
  refine ⟨intermediates_settled library_undisturbed, ?_, ?_, ?_⟩ <;> decide +kernel

end NativeBuild
