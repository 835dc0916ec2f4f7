import NativeBuild.Proofs.Build.Passage

namespace NativeBuild

def BuildContext.commands (c : BuildContext) : List Command := c.linkCommand :: c.postLinkSteps.commands

namespace Build

def intermediates (c : BuildContext) : List Path := c.paths.object :: c.paths.exports.toList

theorem object_mem {c : BuildContext} : c.paths.object ∈ intermediates c := List.mem_cons_self

theorem exports_mem {c : BuildContext} {exports : Path} (hexports : c.paths.exports = some exports) :
    exports ∈ intermediates c :=
  List.mem_cons_of_mem _ (by simp [hexports])

def ownFiles (c : BuildContext) : List Path := intermediates c ++ c.startupObjects

theorem patchTargets_subset (c : BuildContext) : c.patchTargets ⊆ ownFiles c :=
  List.cons_subset_cons _ (List.subset_append_right _ _)

inductive HelperStep (c : BuildContext) (w : Workshop) (dir : Path) (t : FileTree) : FileTree → Prop where
  | compile (trace : Trace) :
      HelperStep c w dir t (w.compile trace t (c.frontEndRequest (dir.child c.ilName))).files
  | load (trace : Trace) (il : Path) : HelperStep c w dir t (w.load trace t (c.codegenRequest il)).files
  | generate (trace : Trace) (il : Path) (program : ProgramGraph) (scan : Option ScanResult) :
      HelperStep c w dir t (w.generate trace t (c.codegenRequest il) program scan).files
  | execute (trace : Trace) {command : Command} (asked : command ∈ c.commands) :
      HelperStep c w dir t (w.execute trace t command).files

variable {c : BuildContext} {w : Workshop} {dir : Path} {stages : List Stage} {a a' : Artifacts} {b b' : Bench}
  {holds : FileTree → Prop}

variable (c w dir) in
def StageKeeps (stage : Stage) (holds : FileTree → Prop) : Prop :=
  ∀ a b, holds b.files → holds (perform c w dir stage a b).2.files

theorem discard_keeps {p : Path}
    (hremove : c.policy.keepObject = false → ∀ t : FileTree, holds t → holds (t.removeQuietly p))
    (h : holds b.files) : holds (discard c p b).files := by
  rw [discard]
  cases hkeep : c.policy.keepObject with
  | true => exact h
  | false => exact hremove hkeep _ h

variable (holds) in
theorem runStages_cons_keeps {stage : Stage} (hruns : c.runs stage = true)
    (hremove : c.policy.keepObject = false → ∀ t : FileTree, holds t → holds (t.removeQuietly c.paths.object))
    (hstage : holds (perform c w dir stage a b).2.files)
    (hrest : ∀ a' b', holds b'.files → holds (runStages c w dir stages a' b').2.files) :
    holds (runStages c w dir (stage :: stages) a b).2.files := by
  cases hperform : perform c w dir stage a b with
  | mk result b' =>
    rw [hperform] at hstage
    cases result with
    | error e =>
      rw [runStages_cons_of_error hruns hperform]
      exact discard_keeps hremove hstage
    | ok a' =>
      rw [runStages_cons_of_ok hruns hperform]
      exact hrest a' b' hstage

variable (holds) in
theorem runStages_keeps_of_runs (hstages : ∀ stage ∈ stages, c.runs stage = true → StageKeeps c w dir stage holds)
    (hremove : c.policy.keepObject = false → ∀ t : FileTree, holds t → holds (t.removeQuietly c.paths.object))
    (h : holds b.files) : holds (runStages c w dir stages a b).2.files := by
  induction stages generalizing a b with
  | nil => exact h
  | cons stage rest ih =>
    obtain ⟨hstage, hrest⟩ := List.forall_mem_cons.mp hstages
    cases hruns : c.runs stage with
    | true => exact runStages_cons_keeps holds hruns hremove (hstage hruns a b h) (fun a' b' hb => ih hrest hb)
    | false =>
      rw [runStages_cons_of_not_runs hruns]
      exact ih hrest h

variable (holds) in
theorem runStages_keeps (hstages : ∀ stage ∈ stages, StageKeeps c w dir stage holds)
    (hremove : c.policy.keepObject = false → ∀ t : FileTree, holds t → holds (t.removeQuietly c.paths.object))
    (h : holds b.files) : holds (runStages c w dir stages a b).2.files :=
  runStages_keeps_of_runs holds (fun stage hstage _ => hstages stage hstage) hremove h

variable (holds) in
theorem through_keeps (hstages : ∀ stage ∈ stages, StageKeeps c w dir stage holds)
    (h : holds b.files) (hthrough : through c w dir stages a b = some (a', b')) : holds b'.files := by
  induction stages generalizing a b with
  | nil =>
    obtain ⟨rfl, rfl⟩ := Prod.mk.inj (Option.some.inj hthrough)
    exact h
  | cons stage rest ih =>
    obtain ⟨hstage, hrest⟩ := List.forall_mem_cons.mp hstages
    cases hruns : c.runs stage with
    | true =>
      obtain ⟨a₁, b₁, hperform, hthrough⟩ := (through_cons_of_runs hruns).mp hthrough
      have hkept := hstage a b h
      rw [hperform] at hkept
      exact ih hrest hkept hthrough
    | false =>
      rw [through_cons_of_not_runs hruns] at hthrough
      exact ih hrest h hthrough

theorem compileStage_keeps
    (hcompile : ∀ trace t, holds t → holds (w.compile trace t (c.frontEndRequest (dir.child c.ilName))).files) :
    StageKeeps c w dir .frontEndCompile holds := by
  intro a b h
  have hcall : holds (b.compile w (c.frontEndRequest (dir.child c.ilName))).2.files := hcompile _ _ h
  rw [perform, compileStage]
  split
  · next il b' heq =>
    rw [heq] at hcall
    exact hcall
  · next failure b' heq =>
    rw [heq] at hcall
    exact hcall

theorem requestFor_eq_ok {request : CodegenRequest} (h : requestFor c a = .ok request) :
    ∃ il, request = c.codegenRequest il := by
  rw [requestFor] at h
  split at h
  · exact ⟨_, (Except.ok.inj h).symm⟩
  · cases h

theorem scanStage_keeps (hload : ∀ trace t il, holds t → holds (w.load trace t (c.codegenRequest il)).files) :
    StageKeeps c w dir .wholeProgramScan holds := by
  intro a b h
  rw [perform, scanStage]
  split
  · exact h
  · next request hrequest =>
    obtain ⟨il, rfl⟩ := requestFor_eq_ok hrequest
    have hcall : holds (b.load w (c.codegenRequest il)).2.files := hload _ _ _ h
    split
    · next e b' heq =>
      rw [heq] at hcall
      exact hcall
    · next program b' heq =>
      rw [heq] at hcall
      exact hcall

theorem codegenStage_keeps (hload : ∀ trace t il, holds t → holds (w.load trace t (c.codegenRequest il)).files)
    (hgenerate : ∀ trace t il program scan, holds t →
      holds (w.generate trace t (c.codegenRequest il) program scan).files) :
    StageKeeps c w dir .codegen holds := by
  intro a b h
  rw [perform, codegenStage]
  split
  · exact h
  · next request hrequest =>
    obtain ⟨il, rfl⟩ := requestFor_eq_ok hrequest
    have hprogram : holds (programFor w (c.codegenRequest il) a b).2.files := by
      rw [programFor]
      split
      · exact h
      · exact hload _ _ _ h
    split
    · next e b' heq =>
      rw [heq] at hprogram
      exact hprogram
    · next program b' heq =>
      rw [heq] at hprogram
      have hcall : holds (b'.generate w (c.codegenRequest il) program a.scan).2.files :=
        hgenerate _ _ _ _ _ hprogram
      split
      · next e b'' heq' =>
        rw [heq'] at hcall
        exact hcall
      · next output b'' heq' =>
        rw [heq'] at hcall
        exact hcall

theorem emitStage_keeps_from
    (hwrite : ∀ output exports, a.output = some output → b.files.isFile output.object = true →
      c.paths.exports = some exports → ∀ text, holds (b.files.writeText exports text).2)
    (h : holds b.files) : holds (emitStage c a b).2.files := by
  rw [emitStage]
  split
  · exact h
  · next output houtput =>
    split
    · next hfile =>
      split
      · exact h
      · next exports hexports =>
        have hwritten := hwrite output exports houtput hfile hexports
          (Exports.render c.profile.os output.exportedSymbols)
        split
        · next files heq =>
          rw [heq] at hwritten
          exact hwritten
        · next e files heq =>
          rw [heq] at hwritten
          exact hwritten
    · exact h

theorem emitStage_keeps
    (hwrite : ∀ exports, c.paths.exports = some exports → ∀ text (t : FileTree), holds t →
      holds (t.writeText exports text).2) :
    StageKeeps c w dir .objectEmit holds :=
  fun _ _ h => emitStage_keeps_from (fun _ exports _ _ hexports text => hwrite exports hexports text _ h) h

theorem patchStage_keeps
    (hpatch : ∀ t : FileTree, holds t → holds (Patch.applyAll t c.patchTargets).2) :
    StageKeeps c w dir .platformPatch holds := by
  intro a b h
  have hpatched := hpatch b.files h
  rw [perform, patchStage]
  split
  · next files heq =>
    rw [heq] at hpatched
    exact hpatched
  · next e files heq =>
    rw [heq] at hpatched
    exact hpatched

theorem linkStage_keeps_from
    (hremove : c.policy.keepObject = false → ∀ p ∈ intermediates c,
      ∀ t : FileTree, holds t → holds (t.removeQuietly p))
    (h : holds (b.execute w c.linkCommand).2.files) : holds (linkStage c w a b).2.files := by
  have hobject (hkeep : c.policy.keepObject = false) := hremove hkeep _ object_mem
  rw [linkStage]
  split
  · next e b' heq =>
    rw [heq] at h
    exact discard_keeps hobject h
  · next code b' heq =>
    rw [heq] at h
    have hdiscarded := discard_keeps hobject h
    dsimp only
    split
    · rw [discardExports]
      split
      · next exports hsome => exact discard_keeps (fun hkeep => hremove hkeep _ (exports_mem hsome)) hdiscarded
      · exact hdiscarded
    · exact hdiscarded

theorem linkStage_keeps (hlink : ∀ trace t, holds t → holds (w.execute trace t c.linkCommand).files)
    (hremove : c.policy.keepObject = false → ∀ p ∈ intermediates c,
      ∀ t : FileTree, holds t → holds (t.removeQuietly p)) :
    StageKeeps c w dir .link holds := by
  intro a b h
  have hcall : holds (b.execute w c.linkCommand).2.files := hlink _ _ h
  exact linkStage_keeps_from hremove hcall

theorem linkStage_keeps_of_error (hlink : ∀ trace t, holds t → holds (w.execute trace t c.linkCommand).files)
    (hremove : ∀ t : FileTree, holds t → holds (t.removeQuietly c.paths.object)) {e : StageFailure}
    (hstage : linkStage c w a b = (.error e, b')) (h : holds b.files) : holds b'.files := by
  have hcall : holds (b.execute w c.linkCommand).2.files := hlink _ _ h
  rw [linkStage] at hstage
  split at hstage
  · next e' b₁ heq =>
    rw [heq] at hcall
    obtain ⟨-, rfl⟩ := Prod.mk.inj hstage
    exact discard_keeps (fun _ => hremove) hcall
  · next code b₁ heq =>
    rw [heq] at hcall
    dsimp only at hstage
    split at hstage
    · cases hstage
    · obtain ⟨-, rfl⟩ := Prod.mk.inj hstage
      exact discard_keeps (fun _ => hremove) hcall

theorem runAll_keeps {commands : List Command}
    (hcommands : ∀ trace t, ∀ command ∈ commands, holds t → holds (w.execute trace t command).files)
    (h : holds b.files) : holds (PostLinkSteps.runAll (Bench.execute w) b commands).2.files := by
  induction commands generalizing b with
  | nil => exact h
  | cons command rest ih =>
    have hcall : holds (b.execute w command).2.files := hcommands _ _ _ List.mem_cons_self h
    have hrest (trace : Trace) (t : FileTree) := (List.forall_mem_cons.mp (hcommands trace t)).2
    rw [PostLinkSteps.runAll]
    split
    · next e b' heq =>
      rw [heq] at hcall
      exact hcall
    · next code b' heq =>
      rw [heq] at hcall
      split
      · exact ih hrest hcall
      · exact hcall

theorem runSteps_keeps {s : PostLinkSteps}
    (hsteps : ∀ trace t, ∀ command ∈ s.commands, holds t → holds (w.execute trace t command).files)
    (h : holds b.files) : holds (PostLinkSteps.run (Bench.execute w) b s).2.files := by
  have hsplit {b : Bench} (hb : holds b.files) :=
    runAll_keeps (fun trace t => (List.forall_mem_append.mp (hsteps trace t)).2) hb
  rw [PostLinkSteps.run]
  split
  · exact hsplit h
  · next patch hpatch =>
    have hmem : patch ∈ s.commands := List.mem_append_left _ (Option.mem_toList.mpr hpatch)
    have hcall : holds (b.execute w patch).2.files := hsteps _ _ _ hmem h
    split
    · next e b' heq =>
      rw [heq] at hcall
      exact hcall
    · next code b' heq =>
      rw [heq] at hcall
      exact hsplit hcall

theorem fixupStage_keeps
    (hsteps : ∀ trace t, ∀ command ∈ c.postLinkSteps.commands, holds t →
      holds (w.execute trace t command).files) :
    StageKeeps c w dir .postLinkFixups holds := by
  intro a b h
  have hrun := runSteps_keeps hsteps h
  rw [perform, fixupStage]
  split
  all_goals
    next heq =>
    rw [heq] at hrun
    exact hrun

variable (c w dir) in
structure Keeps (holds : FileTree → Prop) : Prop where
  helpers : ∀ s t, HelperStep c w dir s t → holds s → holds t
  write : ∀ exports, c.paths.exports = some exports → ∀ text (t : FileTree), holds t →
    holds (t.writeText exports text).2
  patch : ∀ t : FileTree, holds t → holds (Patch.applyAll t c.patchTargets).2
  remove : c.policy.keepObject = false → ∀ p ∈ intermediates c, ∀ t : FileTree, holds t → holds (t.removeQuietly p)

namespace Keeps

variable (h : Keeps c w dir holds)

include h

theorem stage (stage : Stage) : StageKeeps c w dir stage holds := by
  have hload (trace : Trace) (t : FileTree) (il : Path) := h.helpers t _ (.load trace il)
  have htools (trace : Trace) (t : FileTree) (command : Command) (hasked : command ∈ c.commands) :=
    h.helpers t _ (.execute trace hasked)
  cases stage with
  | frontEndCompile => exact compileStage_keeps (fun trace t => h.helpers t _ (.compile trace))
  | wholeProgramScan => exact scanStage_keeps hload
  | codegen =>
    exact codegenStage_keeps hload (fun trace t il program scan => h.helpers t _ (.generate trace il program scan))
  | objectEmit => exact emitStage_keeps h.write
  | platformPatch => exact patchStage_keeps h.patch
  | link => exact linkStage_keeps (fun trace t => htools trace t _ List.mem_cons_self) h.remove
  | postLinkFixups =>
    exact fixupStage_keeps (fun trace t command hstep => htools trace t command (List.mem_cons_of_mem _ hstep))

theorem runStages (hb : holds b.files) : holds (runStages c w dir stages a b).2.files :=
  runStages_keeps holds (fun stage _ => h.stage stage) (fun hkeep => h.remove hkeep _ object_mem) hb

end Keeps

end Build

end NativeBuild
