import NativeBuild.Proofs.Build.Intermediates
import NativeBuild.Proofs.Build.PatchedInputs
import NativeBuild.Proofs.Build.Routine
import NativeBuild.Proofs.Files.Renewal

namespace NativeBuild.Build

open FileTree

variable {c : BuildContext} {routine : Routine} {dir dir' : Path} {a : Artifacts} {b : Bench} {acts : List Act}
  {stages : List Stage} {gone : List Path} {x y : FileTree}

def scraps (c : BuildContext) (p : Path) : List Path := if c.policy.keepObject then [] else [p]

theorem scraps_subset {p : Path} (hp : p ∈ gone) : scraps c p ⊆ gone := by
  rw [scraps]
  split
  · exact List.nil_subset _
  · exact List.cons_subset.mpr ⟨hp, List.nil_subset _⟩

theorem eq_of_mem_scraps {p q : Path} (h : q ∈ scraps c p) : q = p := by
  rw [scraps] at h
  split at h
  · cases h
  · exact List.mem_singleton.mp h

theorem discard_eq (c : BuildContext) (p : Path) (b : Bench) :
    discard c p b = ⟨b.files.removeEach (scraps c p), b.trace⟩ := by
  rw [discard, scraps]
  split <;> rfl

theorem discardExports_eq (c : BuildContext) :
    ∃ ps ⊆ intermediates c, ∀ b : Bench, discardExports c b = ⟨b.files.removeEach ps, b.trace⟩ := by
  cases hexports : c.paths.exports with
  | none => exact ⟨[], List.nil_subset _, fun b => by rw [discardExports, hexports]; rfl⟩
  | some exports =>
    refine ⟨scraps c exports, scraps_subset (exports_mem hexports), fun b => ?_⟩
    rw [discardExports, hexports]
    exact discard_eq c exports b

theorem removeEach_append (t : FileTree) (ps qs : List Path) :
    (t.removeEach ps).removeEach qs = t.removeEach (ps ++ qs) := List.foldl_append.symm

/-- Whatever the files are, a stage comes to the same, and of a list of files it takes the same away. -/
def Blind (c : BuildContext) (routine : Routine) (dir : Path) (gone : List Path) (stage : Stage) : Prop :=
  ∀ a acts, ∃ r acts' ps, ps ⊆ gone ∧ ∀ b : Bench, b.trace.acts = acts →
    ∃ trace : Trace, trace.acts = acts' ∧
      perform c (routine.workshop c) dir stage a b = (r, ⟨b.files.removeEach ps, trace⟩)

section

variable (c routine) (b : Bench)

theorem acts_append_one {deed : Deed} {act : Act} (hact : deed.act? = some act) (t : Trace) (output : Output) :
    Trace.acts (t ++ [⟨deed, output⟩]) = t.acts ++ [act] := by
  rw [Trace.acts_append]
  simp [Trace.acts, hact]

theorem compile_routine (request : FrontEndRequest) :
    ∃ trace : Trace, trace.acts = b.trace.acts ++ [Act.compiled] ∧ b.compile (routine.workshop c) request =
      (routine.compile.map (⟨request.output, ·⟩), ⟨b.files, trace⟩) := ⟨_, acts_append_one rfl _ _, rfl⟩

theorem load_routine (request : CodegenRequest) :
    ∃ trace : Trace, trace.acts = b.trace.acts ++ [Act.loaded] ∧ b.load (routine.workshop c) request =
      (routine.load b.trace.acts, ⟨b.files, trace⟩) := ⟨_, acts_append_one rfl _ _, rfl⟩

theorem generate_routine (request : CodegenRequest) (program : ProgramGraph) (scan : Option ScanResult) :
    ∃ trace : Trace, trace.acts = b.trace.acts ++ [Act.generated scan.isSome] ∧
      b.generate (routine.workshop c) request program scan =
        ((routine.generated c b.trace.acts program scan b.files).1,
          ⟨(routine.generated c b.trace.acts program scan b.files).2, trace⟩) := ⟨_, acts_append_one rfl _ _, rfl⟩

theorem execute_routine (command : Command) :
    ∃ trace : Trace, trace.acts = b.trace.acts ++ [Act.ran command] ∧ b.execute (routine.workshop c) command =
      (routine.execute b.trace.acts command, ⟨b.files, trace⟩) := ⟨_, acts_append_one rfl _ _, rfl⟩

end

theorem compileStage_blind : Blind c routine dir [] .frontEndCompile := by
  intro a acts
  cases hcompile : routine.compile with
  | ok warnings =>
    refine ⟨.ok { a with il := some ⟨(c.frontEndRequest (dir.child c.ilName)).output, warnings⟩ },
      acts ++ [Act.compiled], [], List.nil_subset _, fun b hb => ?_⟩
    obtain ⟨trace, htrace, hcall⟩ := compile_routine c routine b (c.frontEndRequest (dir.child c.ilName))
    rw [perform, compileStage, hcall, hcompile]
    exact ⟨_, (Bench.acts_note_reported _ _).trans (htrace.trans (hb ▸ rfl)), rfl⟩
  | error failure =>
    refine ⟨.error ⟨failure.message, 1⟩, acts ++ [Act.compiled], [], List.nil_subset _, fun b hb => ?_⟩
    obtain ⟨trace, htrace, hcall⟩ := compile_routine c routine b (c.frontEndRequest (dir.child c.ilName))
    rw [perform, compileStage, hcall, hcompile]
    exact ⟨_, (Bench.acts_note_reported _ _).trans (htrace.trans (hb ▸ rfl)), rfl⟩

theorem scanStage_blind : Blind c routine dir [] .wholeProgramScan := by
  intro a acts
  cases hrequest : requestFor c a with
  | error e =>
    refine ⟨.error e, acts, [], List.nil_subset _, fun b hb => ⟨b.trace, hb, ?_⟩⟩
    rw [perform, scanStage, hrequest]
    rfl
  | ok request =>
    cases hload : routine.load acts with
    | error e =>
      refine ⟨.error ⟨e, 1⟩, acts ++ [Act.loaded], [], List.nil_subset _, fun b hb => ?_⟩
      obtain ⟨trace, htrace, hcall⟩ := load_routine c routine b request
      rw [hb] at htrace hcall
      rw [perform, scanStage, hrequest]
      dsimp only
      rw [hcall, hload]
      exact ⟨trace, htrace, rfl⟩
    | ok program =>
      refine ⟨.ok { a with program := some program, scan := some program.scan }, acts ++ [Act.loaded], [],
        List.nil_subset _, fun b hb => ?_⟩
      obtain ⟨trace, htrace, hcall⟩ := load_routine c routine b request
      rw [hb] at htrace hcall
      rw [perform, scanStage, hrequest]
      dsimp only
      rw [hcall, hload]
      exact ⟨trace, htrace, rfl⟩

theorem linkStage_blind : Blind c routine dir (intermediates c) .link := by
  intro a acts
  have hobject : scraps c c.paths.object ⊆ intermediates c := scraps_subset object_mem
  have hcalled (b : Bench) (hb : b.trace.acts = acts) := hb ▸ execute_routine c routine b c.linkCommand
  cases hexecute : routine.execute acts c.linkCommand with
  | error e =>
    refine ⟨.error ⟨e ++ "\n" ++ printHint, 1⟩, acts ++ [Act.ran c.linkCommand], _, hobject, fun b hb => ?_⟩
    obtain ⟨trace, htrace, hcall⟩ := hcalled b hb
    rw [perform, linkStage, hcall, hexecute]
    exact ⟨trace, htrace, congrArg (Prod.mk _) (discard_eq _ _ _)⟩
  | ok code =>
    by_cases hcode : code = 0
    · obtain ⟨ps, hps, hexports⟩ := discardExports_eq c
      refine ⟨.ok a, acts ++ [Act.ran c.linkCommand], _, List.append_subset.mpr ⟨hobject, hps⟩, fun b hb => ?_⟩
      obtain ⟨trace, htrace, hcall⟩ := hcalled b hb
      rw [perform, linkStage, hcall, hexecute]
      dsimp only
      rw [if_pos hcode, hexports, discard_eq, removeEach_append]
      exact ⟨trace, htrace, rfl⟩
    · refine ⟨.error (exitedWith "linker" code), acts ++ [Act.ran c.linkCommand], _, hobject, fun b hb => ?_⟩
      obtain ⟨trace, htrace, hcall⟩ := hcalled b hb
      rw [perform, linkStage, hcall, hexecute]
      dsimp only
      rw [if_neg hcode, discard_eq]
      exact ⟨trace, htrace, rfl⟩

theorem runAll_routine (c : BuildContext) (routine : Routine) (commands : List Command) (acts : List Act) :
    ∃ result acts', ∀ b : Bench, b.trace.acts = acts → ∃ trace : Trace, trace.acts = acts' ∧
      PostLinkSteps.runAll (Bench.execute (routine.workshop c)) b commands = (result, ⟨b.files, trace⟩) := by
  induction commands generalizing acts with
  | nil => exact ⟨.ok none, acts, fun b hb => ⟨b.trace, hb, rfl⟩⟩
  | cons command commands ih =>
    have hcalled (b : Bench) (hb : b.trace.acts = acts) := hb ▸ execute_routine c routine b command
    cases hexecute : routine.execute acts command with
    | error e =>
      refine ⟨.error e, acts ++ [Act.ran command], fun b hb => ?_⟩
      obtain ⟨trace, htrace, hcall⟩ := hcalled b hb
      exact ⟨trace, htrace, by rw [PostLinkSteps.runAll, hcall, hexecute]⟩
    | ok code =>
      by_cases hcode : code = 0
      · obtain ⟨result, acts', hrest⟩ := ih (acts ++ [Act.ran command])
        refine ⟨result, acts', fun b hb => ?_⟩
        obtain ⟨trace, htrace, hcall⟩ := hcalled b hb
        obtain ⟨trace', htrace', hrun⟩ := hrest ⟨b.files, trace⟩ htrace
        refine ⟨trace', htrace', ?_⟩
        rw [PostLinkSteps.runAll, hcall, hexecute]
        dsimp only
        rw [if_pos hcode, hrun]
      · refine ⟨.ok (some ⟨command, code⟩), acts ++ [Act.ran command], fun b hb => ?_⟩
        obtain ⟨trace, htrace, hcall⟩ := hcalled b hb
        refine ⟨trace, htrace, ?_⟩
        rw [PostLinkSteps.runAll, hcall, hexecute]
        dsimp only
        rw [if_neg hcode]

theorem fixups_routine (c : BuildContext) (routine : Routine) (acts : List Act) :
    ∃ result acts', ∀ b : Bench, b.trace.acts = acts → ∃ trace : Trace, trace.acts = acts' ∧
      PostLinkSteps.run (Bench.execute (routine.workshop c)) b c.postLinkSteps = (result, ⟨b.files, trace⟩) := by
  cases hpatch : c.postLinkSteps.elfPatch with
  | none =>
    simp only [PostLinkSteps.run, hpatch]
    exact runAll_routine c routine _ acts
  | some patch =>
    have hcalled (b : Bench) (hb : b.trace.acts = acts) := hb ▸ execute_routine c routine b patch
    simp only [PostLinkSteps.run, hpatch]
    cases hexecute : routine.execute acts patch with
    | error e =>
      refine ⟨.error e, acts ++ [Act.ran patch], fun b hb => ?_⟩
      obtain ⟨trace, htrace, hcall⟩ := hcalled b hb
      exact ⟨trace, htrace, by rw [hcall, hexecute]⟩
    | ok code =>
      obtain ⟨result, acts', hrest⟩ := runAll_routine c routine c.postLinkSteps.splitSymbols (acts ++ [Act.ran patch])
      refine ⟨result, acts', fun b hb => ?_⟩
      obtain ⟨trace, htrace, hcall⟩ := hcalled b hb
      rw [hcall, hexecute]
      exact hrest ⟨b.files, trace⟩ htrace

theorem fixupStage_blind : Blind c routine dir [] .postLinkFixups := by
  intro a acts
  obtain ⟨result, acts', hsteps⟩ := fixups_routine c routine acts
  let r : Except StageFailure Artifacts :=
    match result with
    | .error e => .error ⟨e, 1⟩
    | .ok none => .ok a
    | .ok (some failed) => .error (exitedWith failed.command.toolName failed.exitCode)
  refine ⟨r, acts', [], List.nil_subset _, fun b hb => ?_⟩
  obtain ⟨trace, htrace, hrun⟩ := hsteps b hb
  refine ⟨trace, htrace, ?_⟩
  rw [perform, fixupStage, hrun]
  cases result with
  | error e => rfl
  | ok failed => cases failed <;> rfl

theorem Blind.mono {stage : Stage} {more : List Path} (h : Blind c routine dir gone stage) (hsub : gone ⊆ more) :
    Blind c routine dir more stage := by
  intro a acts
  obtain ⟨r, acts', ps, hps, hstage⟩ := h a acts
  exact ⟨r, acts', ps, List.Subset.trans hps hsub, hstage⟩

theorem runStages_blind (hobject : c.paths.object ∈ gone) (h : ∀ stage ∈ stages, Blind c routine dir gone stage)
    (a : Artifacts) (acts : List Act) :
    ∃ report acts' ps, ps ⊆ gone ∧ ∀ b : Bench, b.trace.acts = acts → ∃ trace : Trace, trace.acts = acts' ∧
      runStages c (routine.workshop c) dir stages a b = (report, ⟨b.files.removeEach ps, trace⟩) := by
  induction stages generalizing a acts with
  | nil => exact ⟨{}, acts, [], List.nil_subset _, fun b hb => ⟨b.trace, hb, rfl⟩⟩
  | cons stage rest ih =>
    obtain ⟨hstage, hrest⟩ := List.forall_mem_cons.mp h
    cases hruns : c.runs stage with
    | false =>
      obtain ⟨report, acts', ps, hps, hgo⟩ := ih hrest a acts
      refine ⟨{ report with stages := (stage, .skipped) :: report.stages }, acts', ps, hps, fun b hb => ?_⟩
      obtain ⟨trace, htrace, hrun⟩ := hgo b hb
      refine ⟨trace, htrace, ?_⟩
      rw [runStages_cons_of_not_runs hruns, hrun]
    | true =>
      obtain ⟨r, acts₁, ps, hps, hperform⟩ := hstage a acts
      cases r with
      | error e =>
        have hscraps : ps ++ scraps c c.paths.object ⊆ gone := List.append_subset.mpr ⟨hps, scraps_subset hobject⟩
        refine ⟨⟨[(stage, .failed)], some ⟨stage, e.message, e.exitCode⟩⟩, acts₁, _, hscraps, fun b hb => ?_⟩
        obtain ⟨trace, htrace, hfailed⟩ := hperform b hb
        refine ⟨trace, htrace, ?_⟩
        rw [runStages_cons_of_error hruns hfailed, discard_eq, removeEach_append]
      | ok a₁ =>
        obtain ⟨report, acts', qs, hqs, hgo⟩ := ih hrest a₁ acts₁
        refine ⟨{ report with stages := (stage, .ran) :: report.stages }, acts', ps ++ qs,
          List.append_subset.mpr ⟨hps, hqs⟩, fun b hb => ?_⟩
        obtain ⟨trace, htrace, hpassed⟩ := hperform b hb
        obtain ⟨trace', htrace', hrun⟩ := hgo ⟨b.files.removeEach ps, trace⟩ htrace
        refine ⟨trace', htrace', ?_⟩
        rw [runStages_cons_of_ok hruns hpassed, hrun, removeEach_append]

theorem through_blind (h : ∀ stage ∈ stages, Blind c routine dir [] stage) (a : Artifacts) (acts : List Act) :
    (∃ report acts', ∀ b : Bench, b.trace.acts = acts → through c (routine.workshop c) dir stages a b = none ∧
      ∃ trace : Trace, trace.acts = acts' ∧ runStages c (routine.workshop c) dir stages a b =
        (report, ⟨b.files.removeEach (scraps c c.paths.object), trace⟩)) ∨
    ∃ a' acts', ∀ b : Bench, b.trace.acts = acts → ∃ trace : Trace, trace.acts = acts' ∧
      through c (routine.workshop c) dir stages a b = some (a', ⟨b.files, trace⟩) := by
  induction stages generalizing a acts with
  | nil => exact .inr ⟨a, acts, fun b hb => ⟨b.trace, hb, rfl⟩⟩
  | cons stage rest ih =>
    obtain ⟨hstage, hrest⟩ := List.forall_mem_cons.mp h
    cases hruns : c.runs stage with
    | false =>
      obtain ⟨report, acts', hgo⟩ | ⟨a', acts', hgo⟩ := ih hrest a acts
      · refine .inl ⟨{ report with stages := (stage, .skipped) :: report.stages }, acts', fun b hb => ?_⟩
        obtain ⟨hnone, trace, htrace, hrun⟩ := hgo b hb
        refine ⟨(through_cons_of_not_runs hruns).trans hnone, trace, htrace, ?_⟩
        rw [runStages_cons_of_not_runs hruns, hrun]
      · refine .inr ⟨a', acts', fun b hb => ?_⟩
        rw [through_cons_of_not_runs hruns]
        exact hgo b hb
    | true =>
      obtain ⟨r, acts₁, ps, hps, hperform⟩ := hstage a acts
      obtain rfl := List.subset_nil.mp hps
      have hperform (b : Bench) (hb : b.trace.acts = acts) : ∃ trace : Trace, trace.acts = acts₁ ∧
          perform c (routine.workshop c) dir stage a b = (r, ⟨b.files, trace⟩) := hperform b hb
      cases r with
      | error e =>
        refine .inl ⟨⟨[(stage, .failed)], some ⟨stage, e.message, e.exitCode⟩⟩, acts₁, fun b hb => ?_⟩
        obtain ⟨trace, htrace, hfailed⟩ := hperform b hb
        refine ⟨through_cons_of_error hruns hfailed, trace, htrace, ?_⟩
        rw [runStages_cons_of_error hruns hfailed, discard_eq]
      | ok a₁ =>
        obtain ⟨report, acts', hgo⟩ | ⟨a', acts', hgo⟩ := ih hrest a₁ acts₁
        · refine .inl ⟨{ report with stages := (stage, .ran) :: report.stages }, acts', fun b hb => ?_⟩
          obtain ⟨trace, htrace, hpassed⟩ := hperform b hb
          obtain ⟨hnone, trace', htrace', hrun⟩ := hgo ⟨b.files, trace⟩ htrace
          refine ⟨(through_cons_of_ok hruns hpassed).trans hnone, trace', htrace', ?_⟩
          rw [runStages_cons_of_ok hruns hpassed, hrun]
        · refine .inr ⟨a', acts', fun b hb => ?_⟩
          obtain ⟨trace, htrace, hpassed⟩ := hperform b hb
          obtain ⟨trace', htrace', hrun⟩ := hgo ⟨b.files, trace⟩ htrace
          exact ⟨trace', htrace', (through_cons_of_runs hruns).mpr ⟨_, _, hpassed, hrun⟩⟩

def stored (c : BuildContext) (routine : Routine) (a : Artifacts) (symbols : List String) (b : Bench) :
    StageResult :=
  match routine.store c b.files (.ok symbols) with
  | (.error e, files) => (.error ⟨e.chain, 1⟩, { b with files })
  | (.ok output, files) => (.ok { a with program := none, scan := none, output := some output }, { b with files })

theorem programFor_routine (c : BuildContext) (routine : Routine) (request : CodegenRequest) (a : Artifacts)
    (acts : List Act) :
    ∃ result acts', ∀ b : Bench, b.trace.acts = acts → ∃ trace : Trace, trace.acts = acts' ∧
      programFor (routine.workshop c) request a b = (result, ⟨b.files, trace⟩) := by
  cases hprogram : a.program with
  | some program =>
    refine ⟨.ok program, acts, fun b hb => ⟨b.trace, hb, ?_⟩⟩
    rw [programFor, hprogram]
  | none =>
    refine ⟨routine.load acts, acts ++ [Act.loaded], fun b hb => ?_⟩
    obtain ⟨trace, htrace, hcall⟩ := load_routine c routine b request
    rw [hb] at htrace hcall
    refine ⟨trace, htrace, ?_⟩
    rw [programFor, hprogram]
    exact hcall

theorem codegenStage_routine (c : BuildContext) (routine : Routine) (a : Artifacts) (acts : List Act) :
    (∃ e acts', ∀ b : Bench, b.trace.acts = acts → ∃ trace : Trace, trace.acts = acts' ∧
      codegenStage c (routine.workshop c) a b = (.error e, ⟨b.files, trace⟩)) ∨
    ∃ symbols acts', ∀ b : Bench, b.trace.acts = acts → ∃ trace : Trace, trace.acts = acts' ∧
      codegenStage c (routine.workshop c) a b = stored c routine a symbols ⟨b.files, trace⟩ := by
  cases hrequest : requestFor c a with
  | error e =>
    refine .inl ⟨e, acts, fun b hb => ⟨b.trace, hb, ?_⟩⟩
    rw [codegenStage, hrequest]
  | ok request =>
    obtain ⟨result, acts₁, hprogram⟩ := programFor_routine c routine request a acts
    cases result with
    | error e =>
      refine .inl ⟨⟨e, 1⟩, acts₁, fun b hb => ?_⟩
      obtain ⟨trace, htrace, hcall⟩ := hprogram b hb
      refine ⟨trace, htrace, ?_⟩
      rw [codegenStage, hrequest]
      dsimp only
      rw [hcall]
    | ok program =>
      have hstage (b : Bench) (hb : b.trace.acts = acts) : ∃ trace : Trace,
          trace.acts = acts₁ ++ [Act.generated a.scan.isSome] ∧ codegenStage c (routine.workshop c) a b =
            match routine.store c b.files (routine.generate acts₁ program a.scan) with
            | (.error e, files) => (.error ⟨e.chain, 1⟩, ⟨files, trace⟩)
            | (.ok output, files) =>
              (.ok { a with program := none, scan := none, output := some output }, ⟨files, trace⟩) := by
        obtain ⟨trace, htrace, hcall⟩ := hprogram b hb
        obtain ⟨trace', htrace', hcall'⟩ := generate_routine c routine ⟨b.files, trace⟩ request program a.scan
        rw [htrace] at htrace' hcall'
        refine ⟨trace', htrace', ?_⟩
        rw [codegenStage, hrequest]
        dsimp only
        rw [hcall]
        dsimp only
        rw [hcall', Routine.generated]
        generalize routine.store c b.files _ = stored
        obtain ⟨output, files⟩ := stored
        cases output <;> rfl
      cases hanswer : routine.generate acts₁ program a.scan with
      | error e =>
        refine .inl ⟨⟨e.chain, 1⟩, acts₁ ++ [Act.generated a.scan.isSome], fun b hb => ?_⟩
        obtain ⟨trace, htrace, hcall⟩ := hstage b hb
        rw [hanswer] at hcall
        exact ⟨trace, htrace, hcall⟩
      | ok symbols =>
        refine .inr ⟨symbols, acts₁ ++ [Act.generated a.scan.isSome], fun b hb => ?_⟩
        obtain ⟨trace, htrace, hcall⟩ := hstage b hb
        rw [hanswer] at hcall
        exact ⟨trace, htrace, hcall⟩

theorem isFile_of_write {bytes : List UInt8} {p : Path} (h : (x.write p bytes).1 = .ok ()) :
    (x.write p bytes).2.isFile p = true := by
  obtain ⟨executable, hlookup⟩ := lookup_write h
  exact isFile_iff_lookup.mpr ⟨bytes, executable, hlookup⟩

theorem not_isFile_of_write_error {bytes : List UInt8} {p : Path} {e : FileError} (h : (x.write p bytes).1 = .error e) :
    x.isFile p = false := by
  rw [← Bool.not_eq_true, isFile_iff]
  rintro ⟨hsep, place, hplace, held, executable, hnode⟩
  have hok : (x.write p bytes).1 = .ok () := write_eq_ok_iff.mpr ⟨hsep, place, hplace, by rw [hnode]; nofun⟩
  rw [h] at hok
  cases hok

theorem stored_of_written (a : Artifacts) (symbols : List String)
    (h : (b.files.write c.paths.object routine.object).1 = .ok ()) :
    stored c routine a symbols b =
      (.ok { a with program := none, scan := none, output := some ⟨c.paths.object, symbols⟩ },
        { b with files := (b.files.write c.paths.object routine.object).2 }) := by
  have hpair : b.files.write c.paths.object routine.object =
      (.ok (), (b.files.write c.paths.object routine.object).2) := Prod.ext h rfl
  rw [stored, Routine.store, hpair]

theorem stored_of_unwritten (a : Artifacts) (symbols : List String) {e : FileError}
    (h : (b.files.write c.paths.object routine.object).1 = .error e) :
    (∃ failure, stored c routine a symbols b = (.error failure, b)) ∨
      stored c routine a symbols b =
        (.ok { a with program := none, scan := none, output := some ⟨c.paths.object, symbols⟩ }, b) := by
  have hpair : b.files.write c.paths.object routine.object = (.error e, b.files) := Prod.ext h (write_of_error h)
  rw [stored, Routine.store, hpair]
  cases hminds : routine.unwritten e with
  | some failure => exact .inl ⟨⟨failure.chain, 1⟩, by simp [hminds]⟩
  | none => exact .inr (by simp [hminds])

def orderFor (c : BuildContext) (routine : Routine) (symbols : List String) : Order where
  object := c.paths.object
  bytes := routine.object
  exports := c.paths.exports.map (·, Exports.render c.profile.os symbols)
  targets := if c.runs .platformPatch then c.patchTargets else []

def faultReport : Order.Fault → BuildReport
  | .emission e => ⟨[(.objectEmit, .failed)], some ⟨.objectEmit, e.message, 1⟩⟩
  | .patch e => ⟨[(.objectEmit, .ran), (.platformPatch, .failed)], some ⟨.platformPatch, e.message, 1⟩⟩

theorem emitStage_eq {symbols : List String} (ha : a.output = some ⟨c.paths.object, symbols⟩)
    (hfile : b.files.isFile c.paths.object = true) :
    emitStage c a b =
      (((orderFor c routine symbols).emit b.files).1.map (fun _ => a) |>.mapError (⟨·.message, 1⟩),
        { b with files := ((orderFor c routine symbols).emit b.files).2 }) := by
  rw [emitStage, ha, Order.emit, orderFor]
  dsimp only
  rw [if_pos hfile]
  cases c.paths.exports with
  | none => rfl
  | some exports =>
    dsimp only [Option.map_some]
    obtain ⟨result, files⟩ := b.files.writeText exports (Exports.render c.profile.os symbols)
    cases result <;> rfl

theorem patchStage_eq (a : Artifacts) (b : Bench) :
    patchStage c a b =
      ((Patch.applyAll b.files c.patchTargets).1.map (fun _ => a) |>.mapError (⟨·.message, 1⟩),
        { b with files := (Patch.applyAll b.files c.patchTargets).2 }) := by
  rw [patchStage]
  obtain ⟨result, files⟩ := Patch.applyAll b.files c.patchTargets
  cases result <;> rfl

theorem runStages_patch (c : BuildContext) (routine : Routine) (dir : Path) (stages : List Stage)
    (symbols : List String) (a : Artifacts) (b : Bench) :
    (∀ e t, Patch.applyAll b.files (orderFor c routine symbols).targets = (.error e, t) →
      runStages c (routine.workshop c) dir (.platformPatch :: stages) a b =
        (⟨[(.platformPatch, .failed)], some ⟨.platformPatch, e.message, 1⟩⟩,
          ⟨t.removeEach (scraps c c.paths.object), b.trace⟩)) ∧
    ∀ t, Patch.applyAll b.files (orderFor c routine symbols).targets = (.ok (), t) →
      runStages c (routine.workshop c) dir (.platformPatch :: stages) a b =
        ({ (runStages c (routine.workshop c) dir stages a ⟨t, b.trace⟩).1 with
            stages := (.platformPatch, if c.runs .platformPatch then .ran else .skipped) ::
              (runStages c (routine.workshop c) dir stages a ⟨t, b.trace⟩).1.stages },
          (runStages c (routine.workshop c) dir stages a ⟨t, b.trace⟩).2) := by
  rw [orderFor, runStages]
  dsimp only
  split
  · rw [perform, patchStage_eq]
    constructor
    · intro e t hpatch
      rw [hpatch]
      exact congrArg (Prod.mk _) (discard_eq _ _ _)
    · intro t hpatch
      rw [hpatch]
      rfl
  · constructor
    · intro e t hpatch
      cases hpatch
    · rintro t ⟨⟩
      rfl

theorem fromEmit_routine (c : BuildContext) (routine : Routine) (dir : Path) {symbols : List String}
    (ha : a.output = some ⟨c.paths.object, symbols⟩) (acts : List Act) :
    ∃ report acts' ps, ps ⊆ intermediates c ∧ ∀ b : Bench, b.trace.acts = acts →
      b.files.isFile c.paths.object = true →
      match (orderFor c routine symbols).finish b.files with
      | (.ok (), t) => ∃ trace : Trace, trace.acts = acts' ∧
          runStages c (routine.workshop c) dir (.objectEmit :: .platformPatch :: Stage.fromLink) a b =
            (report, ⟨t.removeEach ps, trace⟩)
      | (.error fault, t) =>
          runStages c (routine.workshop c) dir (.objectEmit :: .platformPatch :: Stage.fromLink) a b =
            (faultReport fault, ⟨t.removeEach (scraps c c.paths.object), b.trace⟩) := by
  have hrest : ∀ stage ∈ Stage.fromLink, Blind c routine dir (intermediates c) stage := by
    rw [Stage.fromLink_eq]
    simp only [List.forall_mem_cons, List.not_mem_nil, false_implies, implies_true, and_true]
    exact ⟨linkStage_blind, fixupStage_blind.mono (List.nil_subset _)⟩
  obtain ⟨report, acts', ps, hps, hgo⟩ := runStages_blind object_mem hrest a acts
  let entries := (Stage.objectEmit, Outcome.ran) ::
    (.platformPatch, if c.runs .platformPatch then .ran else .skipped) :: report.stages
  refine ⟨{ report with stages := entries }, acts', ps, hps, fun b hb hfile => ?_⟩
  have hemit : c.runs .objectEmit = true := rfl
  rw [runStages, if_pos hemit, perform, emitStage_eq ha hfile, Order.finish]
  generalize (orderFor c routine symbols).emit b.files = emitted
  obtain ⟨result, t⟩ := emitted
  cases result with
  | error e => exact congrArg (Prod.mk _) (discard_eq _ _ _)
  | ok _ =>
    obtain ⟨hfailed, hpassed⟩ := runStages_patch c routine dir Stage.fromLink symbols a ⟨t, b.trace⟩
    dsimp only at hfailed hpassed ⊢
    cases hpatch : Patch.applyAll t (orderFor c routine symbols).targets with
    | mk result t' =>
      cases result with
      | error e =>
        dsimp only [Except.map, Except.mapError]
        rw [hfailed e t' hpatch]
        rfl
      | ok _ =>
        obtain ⟨trace, htrace, hrun⟩ := hgo ⟨t', b.trace⟩ hb
        refine ⟨trace, htrace, ?_⟩
        dsimp only [Except.map, Except.mapError]
        rw [hpassed t' hpatch, hrun]

/-- A build by the routine alone, without a working directory. -/
def mirror (c : BuildContext) (routine : Routine) (dir : Path) (x : FileTree) : BuildReport × Bench :=
  runStages c (routine.workshop c) dir Stage.all {} ⟨x, []⟩

theorem all_eq_beforeCodegen : Stage.all =
    [Stage.frontEndCompile, .wholeProgramScan] ++ Stage.codegen :: .objectEmit :: .platformPatch :: Stage.fromLink := by
  decide

def reportFrom (c : BuildContext) (r : BuildReport) : BuildReport :=
  { r with stages := passedEntries c [.frontEndCompile, .wholeProgramScan] ++ (Stage.codegen, Outcome.ran) :: r.stages }

theorem removeEach_scraps_of_not_isFile {p : Path} (h : x.isFile p = false) : x.removeEach (scraps c p) = x := by
  rw [scraps]
  split
  · rfl
  · exact removeQuietly_of_not_isFile h

theorem removeEach_scraps_twice (p : Path) :
    (x.removeEach (scraps c p)).removeEach (scraps c p) = x.removeEach (scraps c p) := by
  rw [scraps]
  split
  · rfl
  · exact removeQuietly_of_not_isFile isFile_removeQuietly_self

theorem mirror_of_through {trace : Trace}
    (h : through c (routine.workshop c) dir [.frontEndCompile, .wholeProgramScan] {} ⟨x, []⟩ =
      some (a, ⟨x, trace⟩)) :
    mirror c routine dir x =
      match codegenStage c (routine.workshop c) a ⟨x, trace⟩ with
      | (.error e, b) => (⟨passedEntries c [.frontEndCompile, .wholeProgramScan] ++ [(Stage.codegen, Outcome.failed)],
          some ⟨.codegen, e.message, e.exitCode⟩⟩, discard c c.paths.object b)
      | (.ok a', b) =>
        (reportFrom c (runStages c (routine.workshop c) dir (.objectEmit :: .platformPatch :: Stage.fromLink) a' b).1,
          (runStages c (routine.workshop c) dir (.objectEmit :: .platformPatch :: Stage.fromLink) a' b).2) := by
  have hcodegen : c.runs .codegen = true := rfl
  rw [mirror, all_eq_beforeCodegen, runStages_of_through h, runStages, if_pos hcodegen, perform]
  obtain ⟨result, b⟩ := codegenStage c (routine.workshop c) a ⟨x, trace⟩
  cases result <;> rfl

section Stored

variable {symbols : List String} {trace trace' : Trace}
  (hthrough : through c (routine.workshop c) dir [.frontEndCompile, .wholeProgramScan] {} ⟨x, []⟩ =
    some (a, ⟨x, trace⟩))
  (hstage : codegenStage c (routine.workshop c) a ⟨x, trace⟩ = stored c routine a symbols ⟨x, trace'⟩)

include hthrough hstage

theorem files_mirror_of_unwritten {e : FileError} (h : (x.write c.paths.object routine.object).1 = .error e) :
    (mirror c routine dir x).2.files = x := by
  have hno := not_isFile_of_write_error h
  have hkept : (discard c c.paths.object ⟨x, trace'⟩).files = x := by
    rw [discard_eq]
    exact removeEach_scraps_of_not_isFile hno
  have hemit : c.runs .objectEmit = true := rfl
  rw [mirror_of_through hthrough, hstage]
  obtain ⟨failure, hfailed⟩ | hpassed := stored_of_unwritten (b := ⟨x, trace'⟩) a symbols h
  · rw [hfailed]
    exact hkept
  · rw [hpassed]
    dsimp only
    rw [runStages, if_pos hemit, perform, emitStage]
    dsimp only
    rw [hno]
    exact hkept

theorem mirror_of_written (h : (x.write c.paths.object routine.object).1 = .ok ()) {report : BuildReport} {b : Bench}
    (hrest : runStages c (routine.workshop c) dir (.objectEmit :: .platformPatch :: Stage.fromLink)
      { a with program := none, scan := none, output := some ⟨c.paths.object, symbols⟩ }
      ⟨(x.write c.paths.object routine.object).2, trace'⟩ = (report, b)) :
    mirror c routine dir x = (reportFrom c report, b) := by
  rw [mirror_of_through hthrough, hstage, stored_of_written (b := ⟨x, trace'⟩) a symbols h]
  dsimp only
  rw [hrest]

end Stored

theorem mirror_cases (c : BuildContext) (routine : Routine) (dir : Path) :
    (∃ report acts, ∀ x, ∃ trace : Trace, trace.acts = acts ∧
      mirror c routine dir x = (report, ⟨x.removeEach (scraps c c.paths.object), trace⟩)) ∨
    ∃ symbols,
      (∀ x e, (x.write c.paths.object routine.object).1 = .error e → (mirror c routine dir x).2.files = x) ∧
      ∃ report acts acts' ps, ps ⊆ intermediates c ∧
        ∀ x, (x.write c.paths.object routine.object).1 = .ok () →
          (∀ t, (orderFor c routine symbols).fill x = (.ok (), t) → ∃ trace : Trace, trace.acts = acts' ∧
            mirror c routine dir x = (reportFrom c report, ⟨t.removeEach ps, trace⟩)) ∧
          ∀ fault t, (orderFor c routine symbols).fill x = (.error fault, t) → ∃ trace : Trace, trace.acts = acts ∧
            mirror c routine dir x =
              (reportFrom c (faultReport fault), ⟨t.removeEach (scraps c c.paths.object), trace⟩) := by
  have hblind : ∀ stage ∈ [Stage.frontEndCompile, .wholeProgramScan], Blind c routine dir [] stage := by
    simp only [List.forall_mem_cons, List.not_mem_nil, false_implies, implies_true, and_true]
    exact ⟨compileStage_blind, scanStage_blind⟩
  obtain ⟨report, acts, hstop⟩ | ⟨a, acts, hgo⟩ := through_blind hblind {} []
  · refine .inl ⟨report, acts, fun x => ?_⟩
    obtain ⟨hnone, trace, htrace, hrun⟩ := hstop ⟨x, []⟩ rfl
    refine ⟨trace, htrace, ?_⟩
    rw [mirror, all_eq_beforeCodegen, (runStages_of_not_through _ hnone).1, hrun]
  · obtain ⟨e, acts₁, hstop⟩ | ⟨symbols, acts₁, hstored⟩ := codegenStage_routine c routine a acts
    · refine .inl ⟨⟨passedEntries c [.frontEndCompile, .wholeProgramScan] ++ [(Stage.codegen, Outcome.failed)],
        some ⟨.codegen, e.message, e.exitCode⟩⟩, acts₁, fun x => ?_⟩
      obtain ⟨trace, htrace, hthrough⟩ := hgo ⟨x, []⟩ rfl
      obtain ⟨trace', htrace', hstage⟩ := hstop ⟨x, trace⟩ htrace
      refine ⟨trace', htrace', ?_⟩
      rw [mirror_of_through hthrough, hstage]
      exact congrArg (Prod.mk _) (discard_eq _ _ _)
    · have hreach (x : FileTree) : ∃ trace trace' : Trace, trace'.acts = acts₁ ∧
          through c (routine.workshop c) dir [.frontEndCompile, .wholeProgramScan] {} ⟨x, []⟩ =
            some (a, ⟨x, trace⟩) ∧
          codegenStage c (routine.workshop c) a ⟨x, trace⟩ = stored c routine a symbols ⟨x, trace'⟩ := by
        obtain ⟨trace, htrace, hthrough⟩ := hgo ⟨x, []⟩ rfl
        obtain ⟨trace', htrace', hstage⟩ := hstored ⟨x, trace⟩ htrace
        exact ⟨trace, trace', htrace', hthrough, hstage⟩
      let a' : Artifacts := { a with program := none, scan := none, output := some ⟨c.paths.object, symbols⟩ }
      obtain ⟨report, acts', ps, hps, hfrom⟩ := fromEmit_routine c routine dir (a := a') rfl acts₁
      refine .inr ⟨symbols, fun x e hwrite => ?_, report, acts₁, acts', ps, hps, fun x hwrite => ?_⟩
      · obtain ⟨trace, trace', -, hthrough, hstage⟩ := hreach x
        exact files_mirror_of_unwritten hthrough hstage hwrite
      · obtain ⟨trace, trace', htrace', hthrough, hstage⟩ := hreach x
        have hgone := hfrom ⟨(x.write c.paths.object routine.object).2, trace'⟩ htrace' (isFile_of_write hwrite)
        constructor
        · intro t hfill
          rw [show (orderFor c routine symbols).finish (x.write c.paths.object routine.object).2 = (.ok (), t) from hfill]
            at hgone
          obtain ⟨trace'', htrace'', hpassed⟩ := hgone
          exact ⟨trace'', htrace'', mirror_of_written hthrough hstage hwrite hpassed⟩
        · intro fault t hfill
          rw [show (orderFor c routine symbols).finish (x.write c.paths.object routine.object).2 = (.error fault, t)
            from hfill] at hgone
          exact ⟨trace', htrace', mirror_of_written hthrough hstage hwrite hgone⟩

def ending (f : BuildFailure) : Stage × Int := (f.stage, f.exitCode)

/-- The directory for the exports could not be made, and the way to it makes a step up. -/
def Strayed (c : BuildContext) (r : BuildReport) : Prop :=
  ∃ exports parent cause, c.paths.exports = some exports ∧ room? exports = some parent ∧ ".." ∈ parent.steps ∧
    r.failure =
      some ⟨.objectEmit, FileFailure.message ⟨"failed to create directory: " ++ parent.text, cause⟩, 1⟩

structure SameReport (c : BuildContext) (first second : BuildReport) : Prop where
  stages : second.stages = first.stages
  failure : second.failure.map ending = first.failure.map ending
  report : ¬ Strayed c first → second = first

theorem SameReport.refl (c : BuildContext) (r : BuildReport) : SameReport c r r := ⟨rfl, rfl, fun _ => rfl⟩

theorem SameReport.of_emission {e e' : FileFailure}
    (h : ¬ Strayed c (reportFrom c (faultReport (.emission e))) → e' = e) :
    SameReport c (reportFrom c (faultReport (.emission e))) (reportFrom c (faultReport (.emission e'))) where
  stages := rfl
  failure := rfl
  report hstraight := by rw [h hstraight]

theorem strayed_of_astray {symbols : List String} (hastray : (orderFor c routine symbols).Astray x) {e : FileFailure}
    (h : ((orderFor c routine symbols).fill x).1 = .error (.emission e)) :
    Strayed c (reportFrom c (faultReport (.emission e))) := by
  obtain ⟨p, text, parent, cause, hexports, hroom, hup, hfill⟩ := hastray.fill_eq_error
  rw [h] at hfill
  obtain rfl := Order.Fault.emission.inj (Except.error.inj hfill)
  obtain ⟨exports, hlisted, hentry⟩ := Option.map_eq_some_iff.mp hexports
  obtain rfl : exports = p := congrArg Prod.fst hentry
  exact ⟨exports, parent, cause, hlisted, hroom, hup, rfl⟩

theorem content_of_intermediate {symbols : List String} {p : Path} (hp : p ∈ intermediates c) (cwd : Place) :
    (orderFor c routine symbols).content cwd (p.placeFrom cwd) ≠ none := by
  obtain rfl | hp := List.mem_cons.mp hp
  · exact Order.content_object (orderFor c routine symbols) cwd
  · have hexports : (orderFor c routine symbols).exports = some (p, Exports.render c.profile.os symbols) := by
      rw [orderFor, Option.mem_toList.mp hp]
      rfl
    rw [Order.content_exports hexports, if_pos rfl]
    nofun

structure SameRun (c : BuildContext) (first second : BuildReport × Bench) : Prop where
  files : second.2.files = first.2.files
  acts : second.2.trace.acts = first.2.trace.acts
  report : SameReport c first.1 second.1

theorem SameRun.of_mirror {report report' : BuildReport} {trace trace' : Trace} {z : FileTree}
    (hfirst : mirror c routine dir x = (report, ⟨y, trace⟩)) (hsecond : mirror c routine dir y = (report', ⟨z, trace'⟩))
    (hfiles : z = y) (hacts : trace'.acts = trace.acts) (hreport : SameReport c report report') :
    SameRun c (mirror c routine dir x) (mirror c routine dir (mirror c routine dir x).2.files) := by
  rw [hfirst]
  dsimp only
  rw [hsecond]
  exact ⟨hfiles, hacts, hreport⟩

theorem mirror_again (c : BuildContext) (routine : Routine) (dir : Path) (x : FileTree) :
    SameRun c (mirror c routine dir x) (mirror c routine dir (mirror c routine dir x).2.files) := by
  obtain ⟨report, acts, hstop⟩ | ⟨symbols, hunwritten, report, acts, acts', ps, hps, hwritten⟩ :=
    mirror_cases c routine dir
  · obtain ⟨trace, htrace, hfirst⟩ := hstop x
    obtain ⟨trace', htrace', hsecond⟩ := hstop (x.removeEach (scraps c c.paths.object))
    exact .of_mirror hfirst hsecond (removeEach_scraps_twice _) (htrace'.trans htrace.symm) (.refl c report)
  · let o := orderFor c routine symbols
    cases hwrite : (x.write c.paths.object routine.object).1 with
    | error e =>
      rw [hunwritten x e hwrite]
      exact ⟨rfl, rfl, .refl c _⟩
    | ok _ =>
      obtain ⟨hpassed, hfailed⟩ := hwritten x hwrite
      cases hemit : (o.emit (x.write o.object o.bytes).2).1 with
      | ok _ =>
        have hagain {ps : List Path} (hps : ps ⊆ intermediates c) :=
          Order.fill_again_of_emitted (o := o) hwrite hemit
            (fun p hp => content_of_intermediate (hps hp) x.workingDirectory) rfl
        cases hfill : o.fill x with
        | mk result t =>
          rw [hfill] at hagain
          cases result with
          | ok _ =>
            obtain ⟨trace, htrace, hfirst⟩ := hpassed t hfill
            obtain ⟨hwrite', hback, hsame⟩ := hagain hps
            have hfill' : o.fill (t.removeEach ps) = (.ok (), (o.fill (t.removeEach ps)).2) := Prod.ext hsame rfl
            obtain ⟨trace', htrace', hsecond⟩ := (hwritten _ hwrite').1 _ hfill'
            exact .of_mirror hfirst hsecond hback (htrace'.trans htrace.symm) (.refl c _)
          | error fault =>
            obtain ⟨trace, htrace, hfirst⟩ := hfailed fault t hfill
            obtain ⟨hwrite', hback, hsame⟩ := hagain (scraps_subset object_mem)
            let y := t.removeEach (scraps c c.paths.object)
            have hfill' : o.fill y = (.error fault, (o.fill y).2) := Prod.ext hsame rfl
            obtain ⟨trace', htrace', hsecond⟩ := (hwritten y hwrite').2 fault _ hfill'
            exact .of_mirror hfirst hsecond hback (htrace'.trans htrace.symm) (.refl c _)
      | error e =>
        have hfill := Order.fill_of_not_emitted hemit
        obtain ⟨trace, htrace, hfirst⟩ := hfailed _ _ hfill
        let y := (o.emit (x.write o.object o.bytes).2).2.removeEach (scraps c c.paths.object)
        have hy : y = (o.fill x).2.removeEach (scraps c c.paths.object) := by rw [hfill]
        obtain ⟨hwrite', hback, e', hagain, hreason⟩ :=
          Order.fill_again_of_not_emitted (o := o) hwrite hemit (fun p hp => eq_of_mem_scraps hp) hy
        have hfill' : o.fill y = (.error (.emission e'), (o.fill y).2) := Prod.ext hagain rfl
        obtain ⟨trace', htrace', hsecond⟩ := (hwritten y hwrite').2 _ _ hfill'
        have hstrayed (hastray : o.Astray x) : Strayed c (reportFrom c (faultReport (.emission e))) :=
          strayed_of_astray hastray (congrArg Prod.fst hfill)
        exact .of_mirror hfirst hsecond hback (htrace'.trans htrace.symm)
          (.of_emission (fun hstraight => hreason (fun hastray => hstraight (hstrayed hastray))))

/-- A second build leaves the files as the first left them, runs the same commands, and goes as far. It is
reported as the first was, unless the first had no working directory, or strayed. -/
structure Repeats (c : BuildContext) (dir : Path) (first second : BuildReport × Bench) : Prop where
  files : second.2.files = first.2.files
  commands : second.2.trace.commands = first.2.trace.commands
  stages : second.1.stages = first.1.stages
  failure : second.1.failure.map ending = first.1.failure.map ending
  report : (∀ e, first.1 ≠ noWorkDirectory dir e) → ¬ Strayed c first.1 → second.1 = first.1

theorem run_mirror {files : FileTree} (h : Follows c w routine dir files) (hmade : (files.makeDirectory dir).1 = .ok ())
    (dir' : Path) : (run c w dir files).1 = (mirror c routine dir' files).1 ∧
      (run c w dir files).2.trace.acts = (mirror c routine dir' files).2.trace.acts ∧
      (run c w dir files).2.files = (mirror c routine dir' files).2.files := run_same h hmade dir'

theorem reached_run {files : FileTree} (h : Follows c w routine dir files) (hmade : (files.makeDirectory dir).1 = .ok ()) :
    Relation.ReflTransGen (OwnStep c routine.object) files (run c w dir files).2.files := by
  have hbegin : SameArtifacts c {} {} := ⟨rfl, rfl, rfl, rfl, nofun⟩
  rw [(run_same h hmade dir).2.2]
  exact (runStages_same h dir hbegin (opening_mirrored h hmade) Stage.all).2.directed.reached

theorem makeDirectory_reached (hapart : ∀ p ∈ ownPaths c, p.Outside x.workingDirectory (dir.placeFrom x.workingDirectory))
    (hreached : Relation.ReflTransGen (OwnStep c routine.object) x y) (h : (x.makeDirectory dir).1 = .ok ()) :
    (y.makeDirectory dir).1 = .ok () := by
  obtain ⟨place, hplace, hnone⟩ := makeDirectory_eq_ok_iff.mp h
  have hdir := placeFrom_of_locate hplace
  refine makeDirectory_eq_ok_iff.mpr ⟨place, ?_, ?_⟩
  · exact locate_mono (workingDirectory_reached hreached).symm (fun v hv => directory_reached hreached hv) hplace
  · rw [node?_reached_below hapart hreached (hdir ▸ List.prefix_rfl), hnone]

theorem run_again {files : FileTree} (h : Follows c w routine dir files) (h' : Follows c w routine dir' files)
    (hmade : (files.makeDirectory dir).1 = .ok () ↔ (files.makeDirectory dir').1 = .ok ()) :
    Repeats c dir (run c w dir files) (run c w dir' (run c w dir files).2.files) := by
  cases hfirst : (files.makeDirectory dir).1 with
  | error e =>
    have hsecond : ∃ e', (files.makeDirectory dir').1 = .error e' := by
      cases hsecond : (files.makeDirectory dir').1 with
      | error e' => exact ⟨e', rfl⟩
      | ok _ =>
        rw [hmade.mpr hsecond] at hfirst
        cases hfirst
    obtain ⟨e', hsecond⟩ := hsecond
    rw [run_of_not_made hfirst]
    dsimp only
    rw [run_of_not_made hsecond]
    exact ⟨rfl, rfl, rfl, rfl, fun hno => absurd rfl (hno e)⟩
  | ok _ =>
    obtain ⟨hreport, hacts, hfiles⟩ := run_mirror h hfirst dir
    have hsecond := makeDirectory_reached h'.apart (reached_run h hfirst) (hmade.mp hfirst)
    obtain ⟨hreport', hacts', hfiles'⟩ := run_mirror (h'.of_reached (reached_run h hfirst)) hsecond dir
    have hagain := mirror_again c routine dir files
    rw [← hfiles] at hagain
    obtain ⟨hback, hsame, hsaid⟩ := hagain
    constructor
    case files => rw [hfiles', hback, hfiles]
    case commands => rw [Trace.commands_eq_acts, Trace.commands_eq_acts, hacts', hsame, hacts]
    case stages => rw [hreport', hsaid.stages, hreport]
    case failure => rw [hreport', hsaid.failure, hreport]
    case report =>
      intro _ hstraight
      rw [hreport']
      rw [hreport] at hstraight ⊢
      exact hsaid.report hstraight

end NativeBuild.Build

namespace NativeBuild

def Routine.unlinked : Routine where
  compile := .ok []
  load _ := .ok ({} : ProgramDocument).graph
  generate _ _ _ := .ok ["entry"]
  object := hardFloat
  unwritten _ := none
  execute _ _ := .ok 1
  inside _ r := if r = [] then some .directory else none

theorem Build.image_run_again :
    let first := run .image (Routine.unlinked.workshop .image) ⟨"/w"⟩ .installation
    Repeats .image ⟨"/w"⟩ first (run .image (Routine.unlinked.workshop .image) ⟨"/w2"⟩ first.2.files) ∧
      first.1.exitCode = 1 ∧ first.2.files ≠ .installation := by
  have hfollows (dir : Path) (hapart : ∀ p ∈ ownPaths .image, p.Outside FileTree.installation.workingDirectory
      (dir.placeFrom FileTree.installation.workingDirectory)) :=
    workshop_follows .image .unlinked (fun _ _ => rfl) hapart
  refine ⟨run_again (hfollows ⟨"/w"⟩ ?_) (hfollows ⟨"/w2"⟩ ?_) ?_, ?_, ?_⟩ <;> decide +kernel

def BuildContext.winding : BuildContext :=
  { library with paths := { library.paths with exports := some ⟨"/new/../file/app.txt"⟩ } }

theorem Build.winding_run_differs :
    ∃ c routine dir dir' files, Follows c (routine.workshop c) routine dir files ∧
      Follows c (routine.workshop c) routine dir' files ∧
      (files.makeDirectory dir).1 = .ok () ∧ (files.makeDirectory dir').1 = .ok () ∧
      (run c (routine.workshop c) dir' (run c (routine.workshop c) dir files).2.files).1 ≠
        (run c (routine.workshop c) dir files).1 := by
  refine ⟨.winding, .unlinked, ⟨"/w"⟩, ⟨"/w2"⟩, FileTree.empty.withFile [] "file" [],
    workshop_follows .winding .unlinked (fun _ _ => rfl) ?_, workshop_follows .winding .unlinked (fun _ _ => rfl) ?_, ?_, ?_, ?_⟩ <;> decide +kernel

end NativeBuild
