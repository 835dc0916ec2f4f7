import NativeBuild.Proofs.Build.Intermediates

namespace NativeBuild

namespace Trace

def loads (t : Trace) : List CodegenRequest :=
  t.filterMap (fun e => match e.deed with | .loaded request => some request | _ => none)

def generations (t : Trace) : List CodegenRequest :=
  t.filterMap (fun e => match e.deed with | .generated request _ => some request | _ => none)

def OnlyCommands (t : Trace) : Prop := ∀ e ∈ t, ∃ command found, e.deed = .ran command found

variable {t t' : Trace}

theorem loads_append : (t ++ t').loads = t.loads ++ t'.loads := List.filterMap_append

theorem generations_append : (t ++ t').generations = t.generations ++ t'.generations := List.filterMap_append

theorem OnlyCommands.loads (h : t.OnlyCommands) : t.loads = [] := by
  apply List.filterMap_eq_nil_iff.mpr
  intro e he
  obtain ⟨command, found, hran⟩ := h e he
  rw [hran]

theorem OnlyCommands.generations (h : t.OnlyCommands) : t.generations = [] := by
  apply List.filterMap_eq_nil_iff.mpr
  intro e he
  obtain ⟨command, found, hran⟩ := h e he
  rw [hran]

end Trace

namespace BuildContext

def scanFor (c : BuildContext) (program : ProgramGraph) : Option ScanResult :=
  if c.policy.optimization = .none then none else some program.scan

def loadingStage (c : BuildContext) : Stage :=
  if c.policy.optimization = .none then .codegen else .wholeProgramScan

end BuildContext

def Artifacts.Lacks (a : Artifacts) : Stage → Prop
  | .wholeProgramScan | .codegen => a.il = none
  | .objectEmit => a.output = none
  | _ => False

namespace Build

/-- What a build asks of its front-end and then of its code generator, from a state to the state after the last
answer, and what this comes to. Each question has the answers before it in it. -/
inductive Exchange (c : BuildContext) (w : Workshop) (dir : Path) (b : Bench) :
    Except BuildFailure CodegenOutput → Bench → Prop where
  | refused {failure : FrontEndFailure} {b₁ : Bench}
      (compiled : b.compile w (c.frontEndRequest (dir.child c.ilName)) = (.error failure, b₁)) :
      Exchange c w dir b (.error ⟨.frontEndCompile, failure.message, 1⟩) (b₁.note (.reported failure.shown))
  | unloaded {il : Il} {reason : String} {b₁ b₂ : Bench}
      (compiled : b.compile w (c.frontEndRequest (dir.child c.ilName)) = (.ok il, b₁))
      (handed : (c.codegenRequest il.path).il = il.path)
      (loaded : (b₁.note (.reported il.warnings)).load w (c.codegenRequest il.path) = (.error reason, b₂)) :
      Exchange c w dir b (.error ⟨c.loadingStage, reason, 1⟩) b₂
  | ungenerated {il : Il} {program : ProgramGraph} {failure : CodegenFailure} {b₁ b₂ b₃ : Bench}
      (compiled : b.compile w (c.frontEndRequest (dir.child c.ilName)) = (.ok il, b₁))
      (handed : (c.codegenRequest il.path).il = il.path)
      (loaded : (b₁.note (.reported il.warnings)).load w (c.codegenRequest il.path) = (.ok program, b₂))
      (generated : b₂.generate w (c.codegenRequest il.path) program (c.scanFor program) = (.error failure, b₃)) :
      Exchange c w dir b (.error ⟨.codegen, failure.chain, 1⟩) b₃
  | generated {il : Il} {program : ProgramGraph} {output : CodegenOutput} {b₁ b₂ b₃ : Bench}
      (compiled : b.compile w (c.frontEndRequest (dir.child c.ilName)) = (.ok il, b₁))
      (handed : (c.codegenRequest il.path).il = il.path)
      (loaded : (b₁.note (.reported il.warnings)).load w (c.codegenRequest il.path) = (.ok program, b₂))
      (generated : b₂.generate w (c.codegenRequest il.path) program (c.scanFor program) = (.ok output, b₃)) :
      Exchange c w dir b (.ok output) b₃

inductive LaterFailure (c : BuildContext) (output : CodegenOutput) (b : Bench) (f : BuildFailure) : Prop where
  | object (stage : f.stage = .objectEmit) (missing : b.files.isFile output.object = false)
      (message : f.message = "object file '" ++ output.object.text ++ "' was not written")
  | exports {p : Path} {e : FileFailure} (stage : f.stage = .objectEmit) (path : c.paths.exports = some p)
      (unwritten : (b.files.writeText p (Exports.render c.profile.os output.exportedSymbols)).1 = .error e)
      (message : f.message = e.message)
  | after (stage : f.stage ∈ .platformPatch :: Stage.fromLink)

inductive Settled (c : BuildContext) : Except BuildFailure CodegenOutput → Bench → BuildReport × Bench → Prop where
  | stopped {f : BuildFailure} {b : Bench} {r : BuildReport × Bench} (failure : r.1.failure = some f)
      (trace : r.2.trace = b.trace) : Settled c (.error f) b r
  | continued {output : CodegenOutput} {b : Bench} {r : BuildReport × Bench} {later : Trace}
      (trace : r.2.trace = b.trace ++ later) (commands : later.OnlyCommands)
      (failure : ∀ f, r.1.failure = some f → LaterFailure c output b f) : Settled c (.ok output) b r

variable {c : BuildContext} {w : Workshop} {dir : Path} {stage : Stage} {rest : List Stage} {a a' : Artifacts}
  {b b' b₀ b₁ b₂ : Bench} {outcome : Except BuildFailure CodegenOutput} {il : Il} {program : ProgramGraph}

theorem Settled.passed {r : BuildReport × Bench} (h : Settled c outcome b r) (entry : Stage × Outcome) :
    Settled c outcome b ({ r.1 with stages := entry :: r.1.stages }, r.2) := by
  cases h with
  | stopped failure trace => exact .stopped failure trace
  | continued trace commands failure => exact .continued trace commands failure

theorem settled_of_error {e : StageFailure} (hruns : c.runs stage = true)
    (h : perform c w dir stage a b = (.error e, b')) :
    Settled c (.error ⟨stage, e.message, e.exitCode⟩) b' (runStages c w dir (stage :: rest) a b) := by
  rw [runStages_cons_of_error hruns h]
  exact .stopped rfl (discard_trace c _ b')

theorem settled_of_ok (hruns : c.runs stage = true) (h : perform c w dir stage a b = (.ok a', b'))
    (hrest : Settled c outcome b₁ (runStages c w dir rest a' b')) :
    Settled c outcome b₁ (runStages c w dir (stage :: rest) a b) := by
  rw [runStages_cons_of_ok hruns h]
  exact hrest.passed _

theorem settled_of_skipped (hruns : c.runs stage = false)
    (hrest : Settled c outcome b₁ (runStages c w dir rest a b)) :
    Settled c outcome b₁ (runStages c w dir (stage :: rest) a b) := by
  rw [runStages_cons_of_not_runs hruns]
  exact hrest.passed _

theorem onlyCommands_of_divided {t : Trace} {r : BuildReport} (hdivided : t.DividedBy r.stages)
    (hstages : r.stages.map (·.1) <+: .objectEmit :: .platformPatch :: Stage.fromLink) : t.OnlyCommands := by
  intro e he
  obtain ⟨stage, hstage, hdone⟩ := hdivided.exists_doneBy e he
  have hlate : stage ∈ Stage.objectEmit :: .platformPatch :: Stage.fromLink := hstages.subset hstage
  -- None of the other deeds belongs to a stage from the object on.
  cases hdeed : e.deed with
  | ran command found => exact ⟨command, found, rfl⟩
  | compiled _ | reported _ | loaded _ | generated _ _ =>
    rw [hdeed] at hdone
    revert hdone hlate
    cases stage <;> simp [Deed.DoneBy, Stage.fromLink, Stage.all]

theorem laterFailure_of_emit {output : CodegenOutput} (houtput : a.output = some output) {f : BuildFailure}
    (hf : (runStages c w dir (.objectEmit :: .platformPatch :: Stage.fromLink) a b).1.failure = some f) :
    LaterFailure c output b f := by
  have hafter (a' : Artifacts) (b' : Bench)
      (hf : (runStages c w dir (.platformPatch :: Stage.fromLink) a' b').1.failure = some f) :
      LaterFailure c output b f := .after ((runStages_course c w dir _ a' b').failure_mem hf)
  have hruns : c.runs .objectEmit = true := rfl
  rw [runStages, if_pos hruns, perform, emitStage, houtput] at hf
  dsimp only at hf
  cases hfile : b.files.isFile output.object with
  | false =>
    rw [hfile, if_neg Bool.false_ne_true] at hf
    obtain rfl := Option.some.inj hf
    exact .object rfl hfile rfl
  | true =>
    rw [hfile, if_pos rfl] at hf
    cases hpath : c.paths.exports with
    | none =>
      rw [hpath] at hf
      exact hafter _ _ hf
    | some p =>
      rw [hpath] at hf
      dsimp only at hf
      cases hwritten : b.files.writeText p (Exports.render c.profile.os output.exportedSymbols) with
      | mk result files =>
        rw [hwritten] at hf
        cases result with
        | error e =>
          obtain rfl := Option.some.inj hf
          exact .exports rfl hpath (congrArg Prod.fst hwritten) rfl
        | ok _ => exact hafter _ _ hf

theorem settled_from_emit {output : CodegenOutput} (houtput : a.output = some output) :
    Settled c (.ok output) b (runStages c w dir (.objectEmit :: .platformPatch :: Stage.fromLink) a b) := by
  obtain ⟨later, htrace, hdivided⟩ :=
    runStages_divided c w dir (.objectEmit :: .platformPatch :: Stage.fromLink) a b
  have hstages := (runStages_course c w dir (.objectEmit :: .platformPatch :: Stage.fromLink) a b).isPrefix
  exact .continued htrace (onlyCommands_of_divided hdivided hstages) (fun _ => laterFailure_of_emit houtput)

theorem exchange_from_codegen (hil : a.il = some il) (hscan : a.scan = c.scanFor program)
    (hprogram : programFor w (c.codegenRequest il.path) a b = (.ok program, b₂))
    (compiled : b₀.compile w (c.frontEndRequest (dir.child c.ilName)) = (.ok il, b₁))
    (loaded : (b₁.note (.reported il.warnings)).load w (c.codegenRequest il.path) = (.ok program, b₂)) :
    ∃ outcome b', Exchange c w dir b₀ outcome b' ∧
      Settled c outcome b' (runStages c w dir (.codegen :: .objectEmit :: .platformPatch :: Stage.fromLink) a b) := by
  have hruns : c.runs .codegen = true := rfl
  cases hgenerated : b₂.generate w (c.codegenRequest il.path) program (c.scanFor program) with
  | mk result b₃ =>
    have hstage : perform c w dir .codegen a b = codegenStage c w a b := rfl
    rw [codegenStage, requestFor, hil] at hstage
    dsimp only at hstage
    rw [hprogram] at hstage
    dsimp only at hstage
    rw [hscan, hgenerated] at hstage
    cases result with
    | error failure => exact ⟨_, _, .ungenerated compiled rfl loaded hgenerated, settled_of_error hruns hstage⟩
    | ok output =>
      refine ⟨_, _, .generated compiled rfl loaded hgenerated, settled_of_ok hruns hstage ?_⟩
      exact settled_from_emit rfl

theorem exchange_with_scan (hscans : c.policy.optimization ≠ .none)
    (compiled : b₀.compile w (c.frontEndRequest (dir.child c.ilName)) = (.ok il, b₁)) :
    ∃ outcome b', Exchange c w dir b₀ outcome b' ∧
      Settled c outcome b' (runStages c w dir
        (.wholeProgramScan :: .codegen :: .objectEmit :: .platformPatch :: Stage.fromLink) { il := some il }
        (b₁.note (.reported il.warnings))) := by
  have hruns : c.runs .wholeProgramScan = true := bne_iff_ne.mpr hscans
  have hloading : c.loadingStage = .wholeProgramScan := if_neg hscans
  cases hloaded : (b₁.note (.reported il.warnings)).load w (c.codegenRequest il.path) with
  | mk result b₂ =>
    have hstage : perform c w dir .wholeProgramScan { il := some il } (b₁.note (.reported il.warnings)) =
        scanStage c w { il := some il } (b₁.note (.reported il.warnings)) := rfl
    rw [scanStage, requestFor] at hstage
    dsimp only at hstage
    rw [hloaded] at hstage
    cases result with
    | error reason =>
      refine ⟨_, _, .unloaded compiled rfl hloaded, ?_⟩
      rw [hloading]
      exact settled_of_error hruns hstage
    | ok program =>
      have hscan : some program.scan = c.scanFor program := (if_neg hscans).symm
      obtain ⟨outcome, b', hexchange, hsettled⟩ := exchange_from_codegen
        (a := { il := some il, program := some program, scan := some program.scan }) rfl hscan rfl compiled hloaded
      exact ⟨outcome, b', hexchange, settled_of_ok hruns hstage hsettled⟩

theorem exchange_without_scan (hscans : c.policy.optimization = .none)
    (compiled : b₀.compile w (c.frontEndRequest (dir.child c.ilName)) = (.ok il, b₁)) :
    ∃ outcome b', Exchange c w dir b₀ outcome b' ∧
      Settled c outcome b' (runStages c w dir
        (.wholeProgramScan :: .codegen :: .objectEmit :: .platformPatch :: Stage.fromLink) { il := some il }
        (b₁.note (.reported il.warnings))) := by
  have hskipped : c.runs .wholeProgramScan = false := by
    rw [BuildContext.runs, Policy.scans, hscans]
    rfl
  have hloading : c.loadingStage = .codegen := if_pos hscans
  cases hloaded : (b₁.note (.reported il.warnings)).load w (c.codegenRequest il.path) with
  | mk result b₂ =>
    cases result with
    | error reason =>
      have hstage : perform c w dir .codegen { il := some il } (b₁.note (.reported il.warnings)) =
          (.error ⟨reason, 1⟩, b₂) := by
        rw [perform, codegenStage, requestFor]
        dsimp only [programFor]
        rw [hloaded]
      refine ⟨_, _, .unloaded compiled rfl hloaded, settled_of_skipped hskipped ?_⟩
      rw [hloading]
      exact settled_of_error rfl hstage
    | ok program =>
      have hnone : none = c.scanFor program := (if_pos hscans).symm
      obtain ⟨outcome, b', hexchange, hsettled⟩ :=
        exchange_from_codegen (a := { il := some il }) rfl hnone hloaded compiled hloaded
      exact ⟨outcome, b', hexchange, settled_of_skipped hskipped hsettled⟩

theorem all_eq_fromFrontEnd : Stage.all =
    .frontEndCompile :: .wholeProgramScan :: .codegen :: .objectEmit :: .platformPatch :: Stage.fromLink := by decide

theorem runStages_exchange (c : BuildContext) (w : Workshop) (dir : Path) (b : Bench) :
    ∃ outcome b', Exchange c w dir b outcome b' ∧ Settled c outcome b' (runStages c w dir Stage.all {} b) := by
  have hruns : c.runs .frontEndCompile = true := rfl
  rw [all_eq_fromFrontEnd]
  cases hcompiled : b.compile w (c.frontEndRequest (dir.child c.ilName)) with
  | mk result b₁ =>
    have hstage : perform c w dir .frontEndCompile {} b = compileStage c w dir {} b := rfl
    rw [compileStage, hcompiled] at hstage
    cases result with
    | error failure => exact ⟨_, _, .refused hcompiled, settled_of_error hruns hstage⟩
    | ok il =>
      by_cases hscans : c.policy.optimization = .none
      · obtain ⟨outcome, b', hexchange, hsettled⟩ := exchange_without_scan hscans hcompiled
        exact ⟨outcome, b', hexchange, settled_of_ok hruns hstage hsettled⟩
      · obtain ⟨outcome, b', hexchange, hsettled⟩ := exchange_with_scan hscans hcompiled
        exact ⟨outcome, b', hexchange, settled_of_ok hruns hstage hsettled⟩

theorem Exchange.asked {outcome : Except BuildFailure CodegenOutput} (h : Exchange c w dir b outcome b')
    (hb : b.trace = []) : b'.trace.loads.length ≤ 1 ∧ b'.trace.generations.length ≤ 1 := by
  cases h with
  | refused compiled =>
    obtain ⟨-, rfl⟩ := Prod.mk.inj compiled
    simp [Bench.note, Bench.after, hb, Trace.loads, Trace.generations]
  | unloaded compiled _ loaded =>
    obtain ⟨-, rfl⟩ := Prod.mk.inj compiled
    obtain ⟨-, rfl⟩ := Prod.mk.inj loaded
    simp [Bench.note, Bench.after, hb, Trace.loads, Trace.generations]
  | ungenerated compiled _ loaded generated | generated compiled _ loaded generated =>
    obtain ⟨-, rfl⟩ := Prod.mk.inj compiled
    obtain ⟨-, rfl⟩ := Prod.mk.inj loaded
    obtain ⟨-, rfl⟩ := Prod.mk.inj generated
    simp [Bench.note, Bench.after, hb, Trace.loads, Trace.generations]

theorem Settled.asked {r : BuildReport × Bench} (hexchange : Exchange c w dir b outcome b') (hb : b.trace = [])
    (h : Settled c outcome b' r) : r.2.trace.loads.length ≤ 1 ∧ r.2.trace.generations.length ≤ 1 := by
  have hasked := hexchange.asked hb
  cases h with
  | stopped _ trace => rwa [trace]
  | continued trace commands _ =>
    rwa [trace, Trace.loads_append, Trace.generations_append, commands.loads, commands.generations,
      List.append_nil, List.append_nil]

theorem compileStage_il (h : compileStage c w dir a b = (.ok a', b')) : a'.il ≠ none := by
  rw [compileStage] at h
  split at h
  · obtain ⟨ha, -⟩ := Prod.mk.inj h
    rw [← Except.ok.inj ha]
    exact Option.some_ne_none _
  · cases h

theorem scanStage_il (h : scanStage c w a b = (.ok a', b')) : a'.il = a.il := by
  rw [scanStage] at h
  split at h
  · cases h
  · split at h
    · cases h
    · obtain ⟨ha, -⟩ := Prod.mk.inj h
      rw [← Except.ok.inj ha]

theorem il_of_through_compile (h : through c w dir [.frontEndCompile] a b = some (a', b')) : a'.il ≠ none := by
  obtain ⟨a₁, b₁, hperform, hrest⟩ := (through_cons_of_runs rfl).mp h
  obtain ⟨rfl, rfl⟩ := Prod.mk.inj (Option.some.inj hrest)
  exact compileStage_il hperform

theorem il_of_through_scan
    (h : through c w dir ([Stage.frontEndCompile] ++ [Stage.wholeProgramScan]) a b = some (a', b')) :
    a'.il ≠ none := by
  obtain ⟨a₁, b₁, hcompile, hscan⟩ := through_append_eq_some_iff.mp h
  have hil := il_of_through_compile hcompile
  cases hruns : c.runs .wholeProgramScan with
  | false =>
    rw [through_cons_of_not_runs hruns] at hscan
    obtain ⟨rfl, rfl⟩ := Prod.mk.inj (Option.some.inj hscan)
    exact hil
  | true =>
    obtain ⟨a₂, b₂, hperform, hrest⟩ := (through_cons_of_runs hruns).mp hscan
    obtain ⟨rfl, rfl⟩ := Prod.mk.inj (Option.some.inj hrest)
    rw [scanStage_il hperform]
    exact hil

theorem not_lacks_of_through (h : through c w dir (Stage.all.takeWhile (· ≠ stage)) {} b = some (a, b')) :
    ¬ a.Lacks stage := by
  cases stage with
  | frontEndCompile | platformPatch | link | postLinkFixups => exact not_false
  | wholeProgramScan => exact il_of_through_compile h
  | codegen => exact il_of_through_scan h
  | objectEmit =>
    obtain ⟨trace, t, il, program, scan, output, -, houtput⟩ := through_beforeEmit_output h
    rw [Artifacts.Lacks, houtput]
    exact Option.some_ne_none output

structure HandsOn (c : BuildContext) (w : Workshop) (dir : Path) (files : FileTree) (r : BuildReport × Bench) :
    Prop where
  loads : r.2.trace.loads.length ≤ 1
  generations : r.2.trace.generations.length ≤ 1
  exchange : (∃ e, (files.makeDirectory dir).1 = .error e ∧ r = (noWorkDirectory dir e, ⟨files, []⟩)) ∨
    ∃ outcome b, Exchange c w dir (opening dir files) outcome b ∧ Settled c outcome b r
  present : ∀ stage a b, through c w dir (Stage.all.takeWhile (· ≠ stage)) {} (opening dir files) = some (a, b) →
    ¬ a.Lacks stage

theorem run_handsOn (c : BuildContext) (w : Workshop) (dir : Path) (files : FileTree) :
    HandsOn c w dir files (run c w dir files) := by
  cases hmade : (files.makeDirectory dir).1 with
  | error e =>
    rw [run_of_not_made hmade]
    exact ⟨Nat.zero_le _, Nat.zero_le _, .inl ⟨e, hmade, rfl⟩, fun _ _ _ => not_lacks_of_through⟩
  | ok _ =>
    obtain ⟨outcome, b, hexchange, hsettled⟩ := runStages_exchange c w dir (opening dir files)
    have hrun : Settled c outcome b (run c w dir files) := by
      rw [run_of_made hmade]
      cases hsettled with
      | stopped failure trace => exact .stopped failure trace
      | continued trace commands failure => exact .continued trace commands failure
    obtain ⟨hloads, hgenerations⟩ := hrun.asked hexchange rfl
    exact ⟨hloads, hgenerations, .inr ⟨outcome, b, hexchange, hrun⟩, fun _ _ _ => not_lacks_of_through⟩

end Build

end NativeBuild
