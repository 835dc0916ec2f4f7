import NativeBuild.Proofs.Build.Stages
import Mathlib.Data.List.Nodup

namespace NativeBuild

inductive BuildReport.Course (c : BuildContext) : List Stage → BuildReport → Prop where
  | finished : Course c [] {}
  | passed {stage : Stage} {rest : List Stage} {r : BuildReport} {outcome : Outcome}
      (passes : outcome ≠ .failed) (skips : outcome = .skipped ↔ c.runs stage = false)
      (later : Course c rest r) : Course c (stage :: rest) { r with stages := (stage, outcome) :: r.stages }
  | failed {stage : Stage} {rest : List Stage} {e : StageFailure} (runs : c.runs stage = true)
      (code : e.exitCode ≠ 0) :
      Course c (stage :: rest) ⟨[(stage, .failed)], some ⟨stage, e.message, e.exitCode⟩⟩

inductive Trace.DividedBy : List (Stage × Outcome) → Trace → Prop where
  | nil : DividedBy [] []
  | skipped {stage : Stage} {entries : List (Stage × Outcome)} {later : Trace}
      (rest : DividedBy entries later) : DividedBy ((stage, .skipped) :: entries) later
  | begun {stage : Stage} {outcome : Outcome} {entries : List (Stage × Outcome)} {part later : Trace}
      (begins : outcome ≠ .skipped) (own : ∀ e ∈ part, e.deed.DoneBy stage)
      (rest : DividedBy entries later) : DividedBy ((stage, outcome) :: entries) (part ++ later)

theorem Trace.DividedBy.exists_doneBy {entries : List (Stage × Outcome)} {t : Trace}
    (h : t.DividedBy entries) : ∀ e ∈ t, ∃ stage ∈ entries.map (·.1), e.deed.DoneBy stage := by
  induction h with
  | nil => exact List.forall_mem_nil _
  | skipped _ ih =>
    intro e he
    obtain ⟨stage, hstage, hdone⟩ := ih e he
    exact ⟨stage, List.mem_cons_of_mem _ hstage, hdone⟩
  | begun _ own _ ih =>
    intro e he
    obtain he | he := List.mem_append.mp he
    · exact ⟨_, List.mem_cons_self, own e he⟩
    · obtain ⟨stage, hstage, hdone⟩ := ih e he
      exact ⟨stage, List.mem_cons_of_mem _ hstage, hdone⟩

namespace Build

variable (c : BuildContext) (w : Workshop) (dir : Path)

section Step

variable {c w dir} {stage : Stage} {rest : List Stage} {a a' : Artifacts} {b b' : Bench}

theorem runStages_cons_of_error {e : StageFailure} (hruns : c.runs stage = true)
    (h : perform c w dir stage a b = (.error e, b')) :
    runStages c w dir (stage :: rest) a b =
      (⟨[(stage, .failed)], some ⟨stage, e.message, e.exitCode⟩⟩, discard c c.paths.object b') := by
  rw [runStages, if_pos hruns, h]

theorem runStages_cons_of_ok (hruns : c.runs stage = true) (h : perform c w dir stage a b = (.ok a', b')) :
    runStages c w dir (stage :: rest) a b =
      ({ (runStages c w dir rest a' b').1 with
          stages := (stage, .ran) :: (runStages c w dir rest a' b').1.stages },
        (runStages c w dir rest a' b').2) := by
  rw [runStages, if_pos hruns, h]

theorem runStages_cons_of_not_runs (hruns : c.runs stage = false) :
    runStages c w dir (stage :: rest) a b =
      ({ (runStages c w dir rest a b).1 with
          stages := (stage, .skipped) :: (runStages c w dir rest a b).1.stages },
        (runStages c w dir rest a b).2) := by
  rw [runStages, hruns, if_neg Bool.false_ne_true]

end Step

theorem runStages_course (stages : List Stage) (a : Artifacts) (b : Bench) :
    BuildReport.Course c stages (runStages c w dir stages a b).1 := by
  induction stages generalizing a b with
  | nil => exact .finished
  | cons stage rest ih =>
    have hproper := perform_proper c w dir stage a b
    rw [runStages]
    split
    · next hruns =>
      split
      · next e b' h =>
        rw [h] at hproper
        exact .failed hruns (hproper.exitCode e rfl)
      · exact .passed nofun (by simp [hruns]) (ih _ _)
    · next hruns => exact .passed nofun (by simp [hruns]) (ih _ _)

theorem runStages_divided (stages : List Stage) (a : Artifacts) (b : Bench) :
    ∃ t, (runStages c w dir stages a b).2.trace = b.trace ++ t ∧
      t.DividedBy (runStages c w dir stages a b).1.stages := by
  induction stages generalizing a b with
  | nil => exact ⟨[], (List.append_nil _).symm, .nil⟩
  | cons stage rest ih =>
    obtain ⟨part, hpart, hown⟩ := (perform_proper c w dir stage a b).grown
    rw [runStages]
    split
    · split
      · next e b' h =>
        rw [h] at hpart
        refine ⟨part ++ [], ?_, .begun (by decide) hown .nil⟩
        rw [discard_trace, List.append_nil]
        exact hpart
      · next a' b' h =>
        rw [h] at hpart
        obtain ⟨later, ht, hlater⟩ := ih a' b'
        refine ⟨part ++ later, ?_, .begun (by decide) hown hlater⟩
        rw [← List.append_assoc, ← hpart]
        exact ht
    · obtain ⟨later, ht, hlater⟩ := ih a b
      exact ⟨later, ht, .skipped hlater⟩

theorem runStages_recorded (stages : List Stage) (a : Artifacts) (b : Bench) :
    runStages c w dir ((runStages c w dir stages a b).1.stages.map (·.1)) a b =
      runStages c w dir stages a b := by
  induction stages generalizing a b with
  | nil => rfl
  | cons stage rest ih =>
    by_cases hruns : c.runs stage
    · cases h : perform c w dir stage a b with
      | mk x b' =>
        cases x with
        | error e => simp [runStages, hruns, h]
        | ok a' => simp [runStages, hruns, h, ih]
    · simp [runStages, hruns, ih]

end Build

namespace BuildReport.Course

variable {c : BuildContext} {stages : List Stage} {r : BuildReport}

theorem isPrefix (h : Course c stages r) : r.stages.map (·.1) <+: stages := by
  induction h with
  | finished => exact List.prefix_rfl
  | passed _ _ _ ih => exact (List.prefix_cons_inj _).mpr ih
  | failed _ _ => exact (List.prefix_cons_inj _).mpr List.nil_prefix

theorem skipped_iff (h : Course c stages r) : ∀ e ∈ r.stages, e.2 = .skipped ↔ c.runs e.1 = false := by
  induction h with
  | finished => exact List.forall_mem_nil _
  | passed _ skips _ ih => exact List.forall_mem_cons.mpr ⟨skips, ih⟩
  | failed runs _ => exact List.forall_mem_singleton.mpr (by simp [runs])

theorem completed (h : Course c stages r) (hr : ∀ e ∈ r.stages, e.2 ≠ .failed) :
    r.stages.map (·.1) = stages ∧ r.failure = none := by
  induction h with
  | finished => exact ⟨rfl, rfl⟩
  | passed _ _ _ ih =>
    obtain ⟨hs, hf⟩ := ih (List.forall_mem_cons.mp hr).2
    exact ⟨congrArg _ hs, hf⟩
  | failed _ _ => exact absurd rfl (hr _ List.mem_cons_self)

theorem stopped (h : Course c stages r) {e : Stage × Outcome} (he : e ∈ r.stages) (hf : e.2 = .failed) :
    (∃ done, r.stages = done ++ [e] ∧ ∀ d ∈ done, d.2 ≠ .failed) ∧
      ∃ f, r.failure = some f ∧ f.stage = e.1 ∧ f.exitCode ≠ 0 := by
  induction h with
  | finished => exact absurd he List.not_mem_nil
  | passed passes _ _ ih =>
    obtain rfl | he := List.mem_cons.mp he
    · exact absurd hf passes
    · obtain ⟨⟨done, hs, hd⟩, hfailure⟩ := ih he
      exact ⟨⟨_ :: done, congrArg _ hs, List.forall_mem_cons.mpr ⟨passes, hd⟩⟩, hfailure⟩
  | failed _ code =>
    obtain rfl := List.mem_singleton.mp he
    exact ⟨⟨[], rfl, List.forall_mem_nil _⟩, _, rfl, rfl, code⟩

theorem failure_mem (h : Course c stages r) {f : BuildFailure} (hf : r.failure = some f) :
    f.stage ∈ stages := by
  induction h with
  | finished => cases hf
  | passed _ _ _ ih => exact List.mem_cons_of_mem _ (ih hf)
  | failed _ _ =>
    obtain rfl := Option.some.inj hf
    exact List.mem_cons_self

end BuildReport.Course

structure BuildReport.Consistent (c : BuildContext) (r : BuildReport) : Prop where
  order : r.stages.map (·.1) <+: Stage.all
  nodup : (r.stages.map (·.1)).Nodup
  skipped_iff : ∀ e ∈ r.stages, e.2 = .skipped ↔ c.runs e.1 = false
  completed : (∀ e ∈ r.stages, e.2 ≠ .failed) →
    r.stages.map (·.1) = Stage.all ∧ (∀ e ∈ r.stages, e.2 = .ran ∨ e.2 = .skipped) ∧
      r.failure = none ∧ r.exitCode = 0
  stopped : ∀ e ∈ r.stages, e.2 = .failed →
    (∃ done, r.stages = done ++ [e] ∧ ∀ d ∈ done, d.2 ≠ .failed) ∧
      (∃ f, r.failure = some f ∧ f.stage = e.1) ∧ r.exitCode ≠ 0
  exitCode_eq_zero_iff : r.exitCode = 0 ↔
    r.stages.map (·.1) = Stage.all ∧ ∀ e ∈ r.stages, e.2 ≠ .failed

theorem BuildReport.Course.consistent {c : BuildContext} {r : BuildReport} (h : Course c Stage.all r) :
    r.Consistent c := by
  have hcompleted (hr : ∀ e ∈ r.stages, e.2 ≠ .failed) : r.exitCode = 0 := by
    rw [exitCode, (h.completed hr).2]
    rfl
  have hstopped {e : Stage × Outcome} (he : e ∈ r.stages) (hf : e.2 = .failed) : r.exitCode ≠ 0 := by
    obtain ⟨-, f, hfailure, -, hcode⟩ := h.stopped he hf
    rw [exitCode, hfailure]
    exact hcode
  have hall : Stage.all.Nodup := by decide
  constructor
  case order => exact h.isPrefix
  case nodup => exact hall.sublist h.isPrefix.sublist
  case skipped_iff => exact h.skipped_iff
  case completed =>
    intro hr
    have hpassed : ∀ e ∈ r.stages, e.2 = .ran ∨ e.2 = .skipped := by
      intro e he
      cases ho : e.2 with
      | ran => exact .inl rfl
      | skipped => exact .inr rfl
      | failed => exact absurd ho (hr e he)
    exact ⟨(h.completed hr).1, hpassed, (h.completed hr).2, hcompleted hr⟩
  case stopped =>
    intro e he hf
    obtain ⟨hlast, f, hfailure, hstage, -⟩ := h.stopped he hf
    exact ⟨hlast, ⟨f, hfailure, hstage⟩, hstopped he hf⟩
  case exitCode_eq_zero_iff =>
    constructor
    · intro hcode
      have hr : ∀ e ∈ r.stages, e.2 ≠ .failed := fun e he hf => hstopped he hf hcode
      exact ⟨(h.completed hr).1, hr⟩
    · exact fun hr => hcompleted hr.2

namespace Build

def runOnly (c : BuildContext) (w : Workshop) (stages : List Stage) (dir : Path) (files : FileTree) :
    BuildReport × Bench :=
  match files.makeDirectory dir with
  | (.error e, files) => (noWorkDirectory dir e, ⟨files, []⟩)
  | (.ok (), files) =>
    let (report, b) := runStages c w dir stages {} ⟨files, []⟩
    (report, { b with files := clear b.files dir })

variable (c : BuildContext) (w : Workshop) (dir : Path) (files : FileTree)

theorem run_eq_runOnly : run c w dir files = runOnly c w Stage.all dir files := rfl

theorem noWorkDirectory_course (e : FileError) : BuildReport.Course c Stage.all (noWorkDirectory dir e) :=
  .failed (e := ⟨s!"failed to create a working directory: {e.message} at path \"{dir.text}\"", 1⟩) rfl
    Int.one_ne_zero

theorem run_course : BuildReport.Course c Stage.all (run c w dir files).1 := by
  rw [run]
  split
  · exact noWorkDirectory_course c dir _
  · exact runStages_course c w dir Stage.all _ _

theorem run_divided : (run c w dir files).2.trace.DividedBy (run c w dir files).1.stages := by
  rw [run]
  split
  · have hnone : ∀ e ∈ ([] : Trace), e.deed.DoneBy .frontEndCompile := List.forall_mem_nil _
    exact .begun (by decide) hnone .nil
  · next files' _ =>
    obtain ⟨t, ht, hdivided⟩ := runStages_divided c w dir Stage.all {} ⟨files', []⟩
    rw [List.nil_append] at ht
    rw [← ht] at hdivided
    exact hdivided

theorem runOnly_recorded :
    runOnly c w ((run c w dir files).1.stages.map (·.1)) dir files = run c w dir files := by
  rw [run_eq_runOnly]
  cases h : files.makeDirectory dir with
  | mk made files' =>
    cases made with
    | error e => simp only [runOnly, h]
    | ok _ => simp only [runOnly, h, runStages_recorded]

theorem run_consistent :
    (run c w dir files).1.Consistent c ∧
      (run c w dir files).2.trace.DividedBy (run c w dir files).1.stages ∧
      runOnly c w ((run c w dir files).1.stages.map (·.1)) dir files = run c w dir files :=
  ⟨(run_course c w dir files).consistent, run_divided c w dir files, runOnly_recorded c w dir files⟩

end Build

end NativeBuild
