import NativeBuild.Build.Preparation
import NativeBuild.Program.Document
import NativeBuild.Proofs.Build.Report

namespace NativeBuild

structure PlannedCommand where
  command : Command
  advisory : Bool := false
  deriving DecidableEq, Repr

def Command.required (c : Command) : PlannedCommand := ⟨c, false⟩

def Command.noted (c : Command) : PlannedCommand := ⟨c, true⟩

/-- The rewrite of the image is advisory, the moving of symbols is not. -/
def PostLinkSteps.planned (s : PostLinkSteps) : List PlannedCommand :=
  s.elfPatch.toList.map Command.noted ++ s.splitSymbols.map Command.required

inductive Played : List PlannedCommand → List (Command × Except String Int) → Int → Prop where
  | done : Played [] [] 0
  | refused (p : PlannedCommand) (later : List PlannedCommand) (reason : String) :
      Played (p :: later) [(p.command, .error reason)] 1
  | failed (p : PlannedCommand) (later : List PlannedCommand) (code : Int) (binding : p.advisory = false)
      (nonzero : code ≠ 0) : Played (p :: later) [(p.command, .ok code)] code
  | next (p : PlannedCommand) {later : List PlannedCommand} {answers : List (Command × Except String Int)}
      {exitCode : Int} (code : Int) (passes : p.advisory = true ∨ code = 0)
      (rest : Played later answers exitCode) :
      Played (p :: later) ((p.command, .ok code) :: answers) exitCode

namespace Workshop

def answersFrom (w : Workshop) (before : Trace) : Trace → List (Command × Except String Int)
  | [] => []
  | e :: later =>
    match e.deed with
    | .ran command files =>
      (command, (w.execute before files command).result) :: answersFrom w (before ++ [e]) later
    | _ => answersFrom w (before ++ [e]) later

variable (w : Workshop)

theorem answersFrom_append (before xs ys : Trace) :
    w.answersFrom before (xs ++ ys) = w.answersFrom before xs ++ w.answersFrom (before ++ xs) ys := by
  induction xs generalizing before with
  | nil => simp [answersFrom]
  | cons e xs ih =>
    have happend : before ++ [e] ++ xs = before ++ e :: xs := by simp
    simp only [List.cons_append, answersFrom, ih, happend]
    split <;> rfl

theorem answersFrom_commands (before t : Trace) : (w.answersFrom before t).map (·.1) = t.commands := by
  induction t generalizing before with
  | nil => rfl
  | cons e t ih =>
    rw [answersFrom, Trace.commands, List.filterMap_cons]
    cases e.deed with
    | ran command files => exact congrArg (command :: ·) (ih _)
    | _ => exact ih _

theorem answersFrom_eq_nil {before t : Trace}
    (h : ∀ e ∈ t, ∀ command files, e.deed ≠ .ran command files) : w.answersFrom before t = [] := by
  induction t generalizing before with
  | nil => rfl
  | cons e t ih =>
    obtain ⟨he, ht⟩ := List.forall_mem_cons.mp h
    rw [answersFrom]
    split
    · next hran => exact absurd hran (he _ _)
    · exact ih ht

def answers (t : Trace) : List (Command × Except String Int) := w.answersFrom [] t

def Plays (plan : List PlannedCommand) (before after : Trace) (exitCode : Int) : Prop :=
  ∃ new, after = before ++ new ∧ Played plan (w.answersFrom before new) exitCode

variable {w} {plan : List PlannedCommand} {p : PlannedCommand} {b b' : Bench} {after : Trace} {exitCode : Int}

theorem plays_nil (t : Trace) : w.Plays [] t t 0 := ⟨[], (List.append_nil t).symm, .done⟩

theorem plays_execute {answer : Except String Int} {new : Trace}
    (h : b.execute w p.command = (answer, b'))
    (hplayed : Played (p :: plan) ((p.command, answer) :: w.answersFrom b'.trace new) exitCode) :
    w.Plays (p :: plan) b.trace (b'.trace ++ new) exitCode := by
  obtain ⟨rfl, rfl⟩ := Prod.mk.inj h
  exact ⟨_, List.append_assoc _ _ _, hplayed⟩

theorem plays_refused {reason : String} (h : b.execute w p.command = (.error reason, b')) :
    w.Plays (p :: plan) b.trace b'.trace 1 := by
  have hplayed : Played (p :: plan) ((p.command, .error reason) :: w.answersFrom b'.trace []) 1 :=
    .refused p plan reason
  have hplays := plays_execute h hplayed
  rwa [List.append_nil] at hplays

theorem plays_failed (h : b.execute w p.command = (.ok exitCode, b')) (hp : p.advisory = false)
    (hcode : exitCode ≠ 0) : w.Plays (p :: plan) b.trace b'.trace exitCode := by
  have hplayed : Played (p :: plan) ((p.command, .ok exitCode) :: w.answersFrom b'.trace []) exitCode :=
    .failed p plan exitCode hp hcode
  have hplays := plays_execute h hplayed
  rwa [List.append_nil] at hplays

theorem plays_next {code : Int} (h : b.execute w p.command = (.ok code, b'))
    (hp : p.advisory = true ∨ code = 0) (hrest : w.Plays plan b'.trace after exitCode) :
    w.Plays (p :: plan) b.trace after exitCode := by
  obtain ⟨new, rfl, hplayed⟩ := hrest
  exact plays_execute h (.next p code hp hplayed)

end Workshop

open Workshop

namespace PostLinkSteps

def exitCode : Except String (Option FailedCommand) → Int
  | .error _ => 1
  | .ok none => 0
  | .ok (some failed) => failed.exitCode

variable (w : Workshop)

theorem plays_runAll (cs : List Command) (b : Bench) :
    w.Plays (cs.map Command.required) b.trace (runAll (Bench.execute w) b cs).2.trace
      (exitCode (runAll (Bench.execute w) b cs).1) := by
  induction cs generalizing b with
  | nil => exact plays_nil _
  | cons c cs ih =>
    rw [runAll]
    split
    · next h => exact plays_refused (p := c.required) h
    · next code b' h =>
      split
      · next hcode => exact plays_next (p := c.required) h (.inr hcode) (ih b')
      · next hcode => exact plays_failed (p := c.required) h rfl hcode

theorem plays_run (s : PostLinkSteps) (b : Bench) :
    w.Plays s.planned b.trace (s.run (Bench.execute w) b).2.trace
      (exitCode (s.run (Bench.execute w) b).1) := by
  rw [run, planned]
  split
  · next h =>
    rw [h]
    exact plays_runAll w s.splitSymbols b
  · next patch h =>
    rw [h]
    split
    · next h => exact plays_refused (p := patch.noted) h
    · next code b' h => exact plays_next (p := patch.noted) h (.inl rfl) (plays_runAll w s.splitSymbols b')

theorem planned_eq_nil {s : PostLinkSteps} (h : s.isEmpty = true) : s.planned = [] := by
  rw [isEmpty, Bool.and_eq_true, Option.isNone_iff_eq_none, List.isEmpty_iff] at h
  rw [planned, h.1, h.2]
  rfl

end PostLinkSteps

namespace Stage

def beforeLink : List Stage := all.takeWhile (· ≠ .link)

def fromLink : List Stage := all.dropWhile (· ≠ .link)

theorem fromLink_eq : fromLink = [.link, .postLinkFixups] := by decide

theorem not_mem_fromLink {stage : Stage} (h : stage ∈ beforeLink) : stage ∉ fromLink := by
  revert stage
  decide

theorem all_eq_append : all = beforeLink ++ fromLink := List.takeWhile_append_dropWhile.symm

end Stage

def BuildReport.FailedBeforeLink (r : BuildReport) : Prop :=
  ∃ f, r.failure = some f ∧ f.stage ∈ Stage.beforeLink

namespace Build

def toolPlan (link : Command) (steps : PostLinkSteps) : List PlannedCommand := link.required :: steps.planned

variable (c : BuildContext) (w : Workshop) (dir : Path)

theorem fixupStage_cases (a : Artifacts) (b : Bench) :
    (∃ e b', fixupStage c w a b = (.error e, b') ∧
      w.Plays c.postLinkSteps.planned b.trace b'.trace e.exitCode) ∨
    ∃ b', fixupStage c w a b = (.ok a, b') ∧ w.Plays c.postLinkSteps.planned b.trace b'.trace 0 := by
  have hplays := PostLinkSteps.plays_run w c.postLinkSteps b
  rw [fixupStage]
  split
  · next e b' h =>
    rw [h] at hplays
    exact .inl ⟨_, b', rfl, hplays⟩
  · next b' h =>
    rw [h] at hplays
    exact .inr ⟨b', rfl, hplays⟩
  · next failed b' h =>
    rw [h] at hplays
    exact .inl ⟨_, b', rfl, hplays⟩

theorem plays_fixups (a : Artifacts) (b : Bench) (hlinks : c.links = true) :
    w.Plays c.postLinkSteps.planned b.trace (runStages c w dir [.postLinkFixups] a b).2.trace
      (runStages c w dir [.postLinkFixups] a b).1.exitCode := by
  rw [runStages]
  split
  · rw [perform]
    obtain ⟨e, b', h, hplays⟩ | ⟨b', h, hplays⟩ := fixupStage_cases c w a b
    · rw [h]
      dsimp only
      rw [discard_trace]
      exact hplays
    · rw [h]
      exact hplays
  · next hruns =>
    -- a build that links skips the stage only when it has no steps
    have hempty : c.postLinkSteps.isEmpty = true := by
      rw [BuildContext.runs, hlinks] at hruns
      simpa using hruns
    rw [PostLinkSteps.planned_eq_nil hempty]
    exact plays_nil b.trace

theorem linkStage_cases (plan : List PlannedCommand) (a : Artifacts) (b : Bench) :
    (∃ e b', linkStage c w a b = (.error e, b') ∧
      w.Plays (c.linkCommand.required :: plan) b.trace b'.trace e.exitCode) ∨
    ∃ b', linkStage c w a b = (.ok a, b') ∧ ∀ after exitCode,
      w.Plays plan b'.trace after exitCode →
        w.Plays (c.linkCommand.required :: plan) b.trace after exitCode := by
  rw [linkStage]
  split
  · next e b' h =>
    refine .inl ⟨_, _, rfl, ?_⟩
    rw [discard_trace]
    exact plays_refused (p := c.linkCommand.required) h
  · next code b' h =>
    dsimp only
    split
    · next hcode =>
      refine .inr ⟨_, rfl, fun after exitCode hrest => ?_⟩
      rw [discardExports_trace, discard_trace] at hrest
      exact plays_next (p := c.linkCommand.required) h (.inr hcode) hrest
    · next hcode =>
      refine .inl ⟨_, _, rfl, ?_⟩
      rw [discard_trace]
      exact plays_failed (p := c.linkCommand.required) h rfl hcode

theorem plays_fromLink (a : Artifacts) (b : Bench) (hlinks : c.links = true) :
    w.Plays (toolPlan c.linkCommand c.postLinkSteps) b.trace (runStages c w dir Stage.fromLink a b).2.trace
      (runStages c w dir Stage.fromLink a b).1.exitCode := by
  have hruns : c.runs .link = true := hlinks
  rw [Stage.fromLink_eq]
  obtain ⟨e, b', h, hplays⟩ | ⟨b', h, hrest⟩ := linkStage_cases c w c.postLinkSteps.planned a b
  · rw [runStages_cons_of_error hruns h]
    dsimp only
    rw [discard_trace]
    exact hplays
  · rw [runStages_cons_of_ok hruns h]
    exact hrest _ _ (plays_fixups c w dir a b' hlinks)

theorem runStages_fromLink_skipped (a : Artifacts) (b : Bench) (hlinks : c.links = false) :
    runStages c w dir Stage.fromLink a b = (⟨[(.link, .skipped), (.postLinkFixups, .skipped)], none⟩, b) := by
  simp [Stage.fromLink_eq, runStages, BuildContext.runs, hlinks]

inductive Continued (ys : List Stage) : BuildReport × Bench → BuildReport × Bench → Prop where
  | stopped {x : BuildReport × Bench} (f : BuildFailure) (failure : x.1.failure = some f) : Continued ys x x
  | passed {x : BuildReport × Bench} (a : Artifacts) (failure : x.1.failure = none) :
      Continued ys x
        ({ (runStages c w dir ys a x.2).1 with
            stages := x.1.stages ++ (runStages c w dir ys a x.2).1.stages },
          (runStages c w dir ys a x.2).2)

variable {c w dir} in
theorem Continued.cons {ys : List Stage} {x y : BuildReport × Bench} (h : Continued c w dir ys x y)
    (entry : Stage × Outcome) :
    Continued c w dir ys ({ x.1 with stages := entry :: x.1.stages }, x.2)
      ({ y.1 with stages := entry :: y.1.stages }, y.2) := by
  cases h with
  | stopped f failure => exact .stopped f failure
  | passed a failure => exact .passed a failure

theorem runStages_append (xs ys : List Stage) (a : Artifacts) (b : Bench) :
    Continued c w dir ys (runStages c w dir xs a b) (runStages c w dir (xs ++ ys) a b) := by
  induction xs generalizing a b with
  | nil => exact .passed a rfl
  | cons stage xs ih =>
    rw [List.cons_append, runStages, runStages]
    split
    · split
      · exact .stopped _ rfl
      · next a' b' _ => exact (ih a' b').cons (stage, .ran)
    · exact (ih a b).cons (stage, .skipped)

theorem answers_beforeLink (a : Artifacts) (b : Bench) (hb : b.trace = []) :
    w.answers (runStages c w dir Stage.beforeLink a b).2.trace = [] := by
  obtain ⟨t, ht, hdivided⟩ := runStages_divided c w dir Stage.beforeLink a b
  have hprefix := (runStages_course c w dir Stage.beforeLink a b).isPrefix
  rw [ht, hb, List.nil_append]
  apply w.answersFrom_eq_nil
  intro e he command files hran
  obtain ⟨stage, hstage, hdone⟩ := hdivided.exists_doneBy e he
  rw [hran] at hdone
  have hearly : stage ∈ Stage.beforeLink := hprefix.subset hstage
  obtain rfl | rfl := hdone <;> exact absurd hearly (by decide)

structure CommandsFollow (c : BuildContext) (w : Workshop) (link : Command) (r : BuildReport) (t : Trace) :
    Prop where
  commands : (w.answers t).map (·.1) = t.commands
  failedBeforeLink : r.FailedBeforeLink → w.answers t = []
  unlinked : ¬ r.FailedBeforeLink → c.policy.noLink = true → w.answers t = [] ∧ r.exitCode = 0
  linked : ¬ r.FailedBeforeLink → c.policy.noLink = false →
    Played (toolPlan link c.postLinkSteps) (w.answers t) r.exitCode

theorem commandsFollow_of_failed {r : BuildReport} {t : Trace} {link : Command} (hr : r.FailedBeforeLink)
    (ht : w.answers t = []) : CommandsFollow c w link r t :=
  ⟨w.answersFrom_commands [] t, fun _ => ht, fun h => absurd hr h, fun h => absurd hr h⟩

theorem runStages_commandsFollow (a : Artifacts) (b : Bench) (hb : b.trace = []) :
    CommandsFollow c w c.linkCommand (runStages c w dir Stage.all a b).1
      (runStages c w dir Stage.all a b).2.trace := by
  have hcontinued := runStages_append c w dir Stage.beforeLink Stage.fromLink a b
  have hnone := answers_beforeLink c w dir a b hb
  have hcourse := runStages_course c w dir Stage.beforeLink a b
  rw [Stage.all_eq_append]
  -- what follows needs of the first stages only that no command was run, and which of them can have failed
  generalize runStages c w dir (Stage.beforeLink ++ Stage.fromLink) a b = whole at hcontinued ⊢
  generalize runStages c w dir Stage.beforeLink a b = first at hcontinued hnone hcourse
  cases hcontinued with
  | stopped f hf => exact commandsFollow_of_failed c w ⟨f, hf, hcourse.failure_mem hf⟩ hnone
  | passed a' hf =>
    have hlater := runStages_course c w dir Stage.fromLink a' first.2
    constructor
    case commands => exact w.answersFrom_commands [] _
    case failedBeforeLink =>
      rintro ⟨f, hf, hearly⟩
      exact absurd (hlater.failure_mem hf) (Stage.not_mem_fromLink hearly)
    case unlinked =>
      intro _ hnoLink
      have hlinks : c.links = false := by rw [BuildContext.links, hnoLink]; rfl
      rw [runStages_fromLink_skipped c w dir a' first.2 hlinks]
      exact ⟨hnone, rfl⟩
    case linked =>
      intro _ hnoLink
      have hlinks : c.links = true := by rw [BuildContext.links, hnoLink]; rfl
      obtain ⟨new, hnew, hplayed⟩ := plays_fromLink c w dir a' first.2 hlinks
      rw [Workshop.answers] at hnone
      rw [hnew, Workshop.answers, w.answersFrom_append, hnone]
      exact hplayed

theorem run_commandsFollow (files : FileTree) :
    CommandsFollow c w c.linkCommand (run c w dir files).1 (run c w dir files).2.trace := by
  rw [run]
  split
  · have hfirst : Stage.frontEndCompile ∈ Stage.beforeLink := by decide
    exact commandsFollow_of_failed c w ⟨_, rfl, hfirst⟩ rfl
  · exact runStages_commandsFollow c w dir _ _ rfl

end Build

theorem BuildOptions.commandsFollow_linkPlan {o : BuildOptions} {t : FileTree} {cwd : Path} {tools : Tools}
    {host : Host} {c : BuildContext} (h : o.prepare t cwd tools host = .ok c) (w : Workshop) (dir : Path)
    (files : FileTree) :
    ∃ link, o.linkPlan t cwd tools host = .ok link ∧
      Build.CommandsFollow c w link (Build.run c w dir files).1 (Build.run c w dir files).2.trace := by
  have hlink : o.linkPlan t cwd tools host = .ok c.linkCommand := by rw [linkPlan, h]; rfl
  exact ⟨c.linkCommand, hlink, Build.run_commandsFollow c w dir files⟩

def BuildOptions.firmware : BuildOptions where
  inputs := [⟨"app.cs"⟩]
  output := some ⟨"/app.so"⟩
  linkType := some .sharedLibrary
  target := { arch := some "riscv64", libc := some "zisk" }
  flags := { stdlib := .none, separateSymbols := true }

def Tools.bare : Tools where
  home := ⟨"/home"⟩
  libraryOverride := some [⟨"/lib"⟩]
  ld := ⟨"ld"⟩
  objcopy := ⟨"objcopy"⟩
  patchElf := ⟨"patch"⟩
  frontEnd := ⟨"csc"⟩
  codegen := ⟨"ilc"⟩

def Workshop.grudging : Workshop where
  compile _ files request := ⟨.ok ⟨request.output, []⟩, files, {}⟩
  load _ files _ := ⟨.ok ({} : ProgramDocument).graph, files, {}⟩
  generate _ files request _ _ := ⟨.ok ⟨request.object, []⟩, (files.write request.object []).2, {}⟩
  execute _ files command :=
    let code := if command.program = ⟨"patch"⟩ then 2 else if "--strip-debug" ∈ command.args then 3 else 0
    ⟨.ok code, files, {}⟩

theorem BuildOptions.firmware_commandsFollow_linkPlan :
    ∃ c, firmware.prepare .empty ⟨"/"⟩ .bare {} = .ok c ∧
      ∃ link, firmware.linkPlan .empty ⟨"/"⟩ .bare {} = .ok link ∧
        Build.CommandsFollow c .grudging link (Build.run c .grudging ⟨"/w"⟩ .empty).1
          (Build.run c .grudging ⟨"/w"⟩ .empty).2.trace := by
  have hok : (firmware.prepare .empty ⟨"/"⟩ .bare {}).isOk = true := by decide +kernel
  cases h : firmware.prepare .empty ⟨"/"⟩ .bare {} with
  | error e =>
    rw [h] at hok
    cases hok
  | ok c => exact ⟨c, rfl, commandsFollow_linkPlan h .grudging ⟨"/w"⟩ .empty⟩

example :
    (BuildOptions.firmware.prepare .empty ⟨"/"⟩ .bare {}).toOption.map (fun c =>
      let (report, b) := Build.run c .grudging ⟨"/w"⟩ .empty
      ((Workshop.grudging.answers b.trace).map (·.2.toOption), report.exitCode)) =
    some ([some 0, some 2, some 0, some 3], 3) := by decide +kernel

end NativeBuild
