import NativeBuild.Build.Run

namespace NativeBuild

def Deed.DoneBy : Deed → Stage → Prop
  | .compiled _, stage => stage = .frontEndCompile
  | .reported _, stage => stage = .frontEndCompile
  | .loaded _, stage => stage = .wholeProgramScan ∨ stage = .codegen
  | .generated _ _, stage => stage = .codegen
  | .ran _ _, stage => stage = .link ∨ stage = .postLinkFixups

namespace Bench

def Grown (stage : Stage) (b b' : Bench) : Prop :=
  ∃ new : Trace, b'.trace = b.trace ++ new ∧ ∀ e ∈ new, e.deed.DoneBy stage

variable {stage : Stage} {b b' b'' : Bench}

theorem Grown.of_trace_eq (h : b'.trace = b.trace) : Grown stage b b' := by
  refine ⟨[], ?_, fun _ he => absurd he List.not_mem_nil⟩
  rw [h, List.append_nil]

theorem Grown.refl (b : Bench) : Grown stage b b := .of_trace_eq rfl

theorem Grown.trans (h : Grown stage b b') (h' : Grown stage b' b'') : Grown stage b b'' := by
  obtain ⟨new, ht, hp⟩ := h
  obtain ⟨new', ht', hp'⟩ := h'
  refine ⟨new ++ new', ?_, ?_⟩
  · rw [ht', ht, List.append_assoc]
  · exact List.forall_mem_append.mpr ⟨hp, hp'⟩

theorem grown_after {α : Type} (deed : Deed) (hd : deed.DoneBy stage) (r : Reply α) :
    Grown stage b (b.after deed r) :=
  ⟨[⟨deed, r.output⟩], rfl, List.forall_mem_singleton.mpr hd⟩

theorem grown_note (deed : Deed) (hd : deed.DoneBy stage) : Grown stage b (b.note deed) :=
  ⟨[⟨deed, {}⟩], rfl, List.forall_mem_singleton.mpr hd⟩

theorem grown_compile (w : Workshop) (request : FrontEndRequest) :
    Grown .frontEndCompile b (b.compile w request).2 :=
  grown_after (.compiled request) rfl _

theorem grown_load (h : stage = .wholeProgramScan ∨ stage = .codegen) (w : Workshop)
    (request : CodegenRequest) : Grown stage b (b.load w request).2 :=
  grown_after (.loaded request) h _

theorem grown_generate (w : Workshop) (request : CodegenRequest) (program : ProgramGraph)
    (scan : Option ScanResult) : Grown .codegen b (b.generate w request program scan).2 :=
  grown_after (.generated request scan.isSome) rfl _

theorem grown_execute (h : stage = .link ∨ stage = .postLinkFixups) (w : Workshop) (command : Command) :
    Grown stage b (b.execute w command).2 :=
  grown_after (.ran command b.files) h _

end Bench

open Bench

structure StageResult.Proper (stage : Stage) (b : Bench) (x : StageResult) : Prop where
  grown : b.Grown stage x.2
  exitCode : ∀ e, x.1 = .error e → e.exitCode ≠ 0

namespace Build

variable {c : BuildContext} {w : Workshop} {dir : Path} {a : Artifacts} {b b' : Bench} {stage : Stage}

theorem proper_ok (h : b.Grown stage b') : StageResult.Proper stage b (.ok a, b') :=
  ⟨h, fun _ he => nomatch he⟩

theorem proper_error {e : StageFailure} (h : b.Grown stage b') (he : e.exitCode ≠ 0) :
    StageResult.Proper stage b (.error e, b') := by
  refine ⟨h, ?_⟩
  rintro _ ⟨⟩
  exact he

theorem proper_failure {message : String} (h : b.Grown stage b') :
    StageResult.Proper stage b (.error ⟨message, 1⟩, b') := proper_error h Int.one_ne_zero

theorem compileStage_proper : StageResult.Proper .frontEndCompile b (compileStage c w dir a b) := by
  have hcall := grown_compile (b := b) w (c.frontEndRequest (dir.child c.ilName))
  rw [compileStage]
  split
  · next il b' h =>
    rw [h] at hcall
    exact proper_ok (hcall.trans (grown_note _ rfl))
  · next failure b' h =>
    rw [h] at hcall
    exact proper_failure (hcall.trans (grown_note _ rfl))

theorem requestFor_exitCode {e : StageFailure} (h : requestFor c a = .error e) : e.exitCode ≠ 0 := by
  rw [requestFor] at h
  split at h
  · nomatch h
  · obtain rfl := Except.error.inj h
    exact Int.one_ne_zero

theorem scanStage_proper : StageResult.Proper .wholeProgramScan b (scanStage c w a b) := by
  rw [scanStage]
  split
  · next e h => exact proper_error (.refl b) (requestFor_exitCode h)
  · next request _ =>
    have hcall := grown_load (b := b) (Or.inl rfl) w request
    split
    · next e b' h =>
      rw [h] at hcall
      exact proper_failure hcall
    · next program b' h =>
      rw [h] at hcall
      exact proper_ok hcall

theorem grown_programFor (w : Workshop) (request : CodegenRequest) (a : Artifacts) :
    Grown .codegen b (programFor w request a b).2 := by
  rw [programFor]
  split
  · exact .refl b
  · exact grown_load (Or.inr rfl) w request

theorem codegenStage_proper : StageResult.Proper .codegen b (codegenStage c w a b) := by
  rw [codegenStage]
  split
  · next e h => exact proper_error (.refl b) (requestFor_exitCode h)
  · next request _ =>
    have hload := grown_programFor (b := b) w request a
    split
    · next e b' h =>
      rw [h] at hload
      exact proper_failure hload
    · next program b' h =>
      rw [h] at hload
      have hcall := grown_generate (b := b') w request program a.scan
      split
      · next e b'' h' =>
        rw [h'] at hcall
        exact proper_failure (hload.trans hcall)
      · next output b'' h' =>
        rw [h'] at hcall
        exact proper_ok (hload.trans hcall)

theorem emitStage_proper : StageResult.Proper .objectEmit b (emitStage c a b) := by
  rw [emitStage]
  split
  · exact proper_failure (.refl b)
  · split
    · split
      · exact proper_ok (.refl b)
      · split
        · exact proper_ok (.of_trace_eq rfl)
        · exact proper_failure (.of_trace_eq rfl)
    · exact proper_failure (.refl b)

theorem patchStage_proper : StageResult.Proper .platformPatch b (patchStage c a b) := by
  rw [patchStage]
  split
  · exact proper_ok (.of_trace_eq rfl)
  · exact proper_failure (.of_trace_eq rfl)

theorem discard_trace (c : BuildContext) (p : Path) (b : Bench) : (discard c p b).trace = b.trace := by
  rw [discard]
  split <;> rfl

theorem discardExports_trace (c : BuildContext) (b : Bench) : (discardExports c b).trace = b.trace := by
  rw [discardExports]
  split
  · exact discard_trace c _ b
  · rfl

theorem linkStage_proper : StageResult.Proper .link b (linkStage c w a b) := by
  have hcall := grown_execute (b := b) (Or.inl rfl) w c.linkCommand
  rw [linkStage]
  split
  · next e b' h =>
    rw [h] at hcall
    exact proper_failure (hcall.trans (.of_trace_eq (discard_trace c _ b')))
  · next code b' h =>
    rw [h] at hcall
    have hdiscard := hcall.trans (.of_trace_eq (discard_trace c c.paths.object b'))
    dsimp only
    split
    · exact proper_ok (hdiscard.trans (.of_trace_eq (discardExports_trace c _)))
    · next hcode => exact proper_error hdiscard hcode

end Build

namespace PostLinkSteps

variable {σ : Type} {execute : σ → Command → Except String Int × σ}

theorem runAll_exitCode {cs : List Command} {state : σ} {failed : FailedCommand}
    (h : (runAll execute state cs).1 = .ok (some failed)) : failed.exitCode ≠ 0 := by
  induction cs generalizing state with
  | nil => simp [runAll] at h
  | cons c cs ih =>
    rw [runAll] at h
    split at h
    · simp at h
    · next code state' _ =>
      split at h
      · exact ih h
      · next hcode =>
        simp only [Except.ok.injEq, Option.some.injEq] at h
        rw [← h]
        exact hcode

theorem run_exitCode {s : PostLinkSteps} {state : σ} {failed : FailedCommand}
    (h : (s.run execute state).1 = .ok (some failed)) : failed.exitCode ≠ 0 := by
  rw [run] at h
  split at h
  · exact runAll_exitCode h
  · split at h
    · simp at h
    · exact runAll_exitCode h

theorem grown_runAll (w : Workshop) (cs : List Command) (b : Bench) :
    b.Grown .postLinkFixups (runAll (Bench.execute w) b cs).2 := by
  induction cs generalizing b with
  | nil => exact .refl b
  | cons c cs ih =>
    have hcall := grown_execute (b := b) (Or.inr rfl) w c
    rw [runAll]
    split
    · next e b' h =>
      rw [h] at hcall
      exact hcall
    · next code b' h =>
      rw [h] at hcall
      split
      · exact hcall.trans (ih b')
      · exact hcall

theorem grown_run (w : Workshop) (s : PostLinkSteps) (b : Bench) :
    b.Grown .postLinkFixups (s.run (Bench.execute w) b).2 := by
  rw [run]
  split
  · exact grown_runAll w _ b
  · next patch _ =>
    have hcall := grown_execute (b := b) (Or.inr rfl) w patch
    split
    · next e b' h =>
      rw [h] at hcall
      exact hcall
    · next code b' h =>
      rw [h] at hcall
      exact hcall.trans (grown_runAll w _ b')

end PostLinkSteps

namespace Build

variable {c : BuildContext} {w : Workshop} {a : Artifacts} {b : Bench}

theorem fixupStage_proper : StageResult.Proper .postLinkFixups b (fixupStage c w a b) := by
  have hcall := PostLinkSteps.grown_run w c.postLinkSteps b
  rw [fixupStage]
  split
  · next e b' h =>
    rw [h] at hcall
    exact proper_failure hcall
  · next b' h =>
    rw [h] at hcall
    exact proper_ok hcall
  · next failed b' h =>
    rw [h] at hcall
    have hcode : failed.exitCode ≠ 0 := PostLinkSteps.run_exitCode (congrArg Prod.fst h)
    exact proper_error hcall hcode

theorem perform_proper (c : BuildContext) (w : Workshop) (dir : Path) (stage : Stage) (a : Artifacts)
    (b : Bench) : StageResult.Proper stage b (perform c w dir stage a b) := by
  cases stage with
  | frontEndCompile => exact compileStage_proper
  | wholeProgramScan => exact scanStage_proper
  | codegen => exact codegenStage_proper
  | objectEmit => exact emitStage_proper
  | platformPatch => exact patchStage_proper
  | link => exact linkStage_proper
  | postLinkFixups => exact fixupStage_proper

end Build

end NativeBuild
