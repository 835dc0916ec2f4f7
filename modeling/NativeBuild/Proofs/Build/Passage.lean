import NativeBuild.Proofs.Build.Report
import NativeBuild.Proofs.Files.Effects

namespace NativeBuild.Build

variable (c : BuildContext) (w : Workshop) (dir : Path)

def through : List Stage → Artifacts → Bench → Option (Artifacts × Bench)
  | [], a, b => some (a, b)
  | stage :: rest, a, b =>
    if c.runs stage then
      match perform c w dir stage a b with
      | (.ok a, b) => through rest a b
      | (.error _, _) => none
    else through rest a b

def passedEntries (stages : List Stage) : List (Stage × Outcome) :=
  stages.map (fun stage => (stage, if c.runs stage then .ran else .skipped))

variable {c w dir} {xs ys : List Stage} {a a' : Artifacts} {b b' : Bench}

theorem through_cons_of_error {stage : Stage} {e : StageFailure} (hruns : c.runs stage = true)
    (h : perform c w dir stage a b = (.error e, b')) : through c w dir (stage :: xs) a b = none := by
  rw [through, if_pos hruns, h]

theorem through_cons_of_ok {stage : Stage} (hruns : c.runs stage = true)
    (h : perform c w dir stage a b = (.ok a', b')) :
    through c w dir (stage :: xs) a b = through c w dir xs a' b' := by
  rw [through, if_pos hruns, h]

theorem through_cons_of_runs {stage : Stage} (hruns : c.runs stage = true) :
    through c w dir (stage :: xs) a b = some (a', b') ↔
      ∃ a₁ b₁, perform c w dir stage a b = (.ok a₁, b₁) ∧ through c w dir xs a₁ b₁ = some (a', b') := by
  cases h : perform c w dir stage a b with
  | mk result b₁ =>
    cases result with
    | error e => simp [through_cons_of_error hruns h]
    | ok a₁ => simp [through_cons_of_ok hruns h]

theorem through_cons_of_not_runs {stage : Stage} (hruns : c.runs stage = false) :
    through c w dir (stage :: xs) a b = through c w dir xs a b := by
  rw [through, hruns]
  rfl

theorem through_append :
    through c w dir (xs ++ ys) a b = (through c w dir xs a b).bind (fun m => through c w dir ys m.1 m.2) := by
  induction xs generalizing a b with
  | nil => rfl
  | cons stage xs ih =>
    rw [List.cons_append, through, through]
    split
    · split
      · exact ih
      · rfl
    · exact ih

theorem through_append_eq_some_iff :
    through c w dir (xs ++ ys) a b = some (a', b') ↔
      ∃ a₁ b₁, through c w dir xs a b = some (a₁, b₁) ∧ through c w dir ys a₁ b₁ = some (a', b') := by
  rw [through_append, Option.bind_eq_some_iff, Prod.exists]

theorem runStages_of_through (h : through c w dir xs a b = some (a', b')) :
    runStages c w dir (xs ++ ys) a b =
      ({ (runStages c w dir ys a' b').1 with
          stages := passedEntries c xs ++ (runStages c w dir ys a' b').1.stages },
        (runStages c w dir ys a' b').2) := by
  induction xs generalizing a b with
  | nil =>
    obtain ⟨rfl, rfl⟩ := Prod.mk.inj (Option.some.inj h)
    rfl
  | cons stage xs ih =>
    rw [List.cons_append]
    cases hruns : c.runs stage with
    | true =>
      obtain ⟨a₁, b₁, hperform, hrest⟩ := (through_cons_of_runs hruns).mp h
      rw [runStages_cons_of_ok hruns hperform, ih hrest]
      simp [passedEntries, hruns]
    | false =>
      rw [through_cons_of_not_runs hruns] at h
      rw [runStages_cons_of_not_runs hruns, ih h]
      simp [passedEntries, hruns]

theorem snd_runStages_of_through (h : through c w dir xs a b = some (a', b')) :
    (runStages c w dir xs a b).2 = b' := by
  have hrun : runStages c w dir (xs ++ []) a b = _ := runStages_of_through h
  rw [List.append_nil] at hrun
  rw [hrun]
  rfl

variable (ys) in
theorem runStages_of_not_through (h : through c w dir xs a b = none) :
    runStages c w dir (xs ++ ys) a b = runStages c w dir xs a b ∧
      ∃ f, (runStages c w dir xs a b).1.failure = some f := by
  induction xs generalizing a b with
  | nil => cases h
  | cons stage xs ih =>
    rw [List.cons_append]
    cases hruns : c.runs stage with
    | false =>
      rw [through_cons_of_not_runs hruns] at h
      obtain ⟨hsame, hfailure⟩ := ih h
      rw [runStages_cons_of_not_runs hruns, runStages_cons_of_not_runs hruns, hsame]
      exact ⟨rfl, hfailure⟩
    | true =>
      cases hperform : perform c w dir stage a b with
      | mk result b₁ =>
        cases result with
        | error e =>
          rw [runStages_cons_of_error hruns hperform, runStages_cons_of_error hruns hperform]
          exact ⟨rfl, _, rfl⟩
        | ok a₁ =>
          rw [through_cons_of_ok hruns hperform] at h
          obtain ⟨hsame, hfailure⟩ := ih h
          rw [runStages_cons_of_ok hruns hperform, runStages_cons_of_ok hruns hperform, hsame]
          exact ⟨rfl, hfailure⟩

theorem through_of_mem_ran {stage : Stage} (hfirst : stage ∉ xs)
    (h : (stage, Outcome.ran) ∈ (runStages c w dir (xs ++ stage :: ys) a b).1.stages) :
    c.runs stage = true ∧ ∃ a₁ b₁ a₂ b₂, through c w dir xs a b = some (a₁, b₁) ∧
      perform c w dir stage a₁ b₁ = (.ok a₂, b₂) := by
  have hskipped := (runStages_course c w dir (xs ++ stage :: ys) a b).skipped_iff _ h
  have hruns : c.runs stage = true := by
    cases hr : c.runs stage with
    | true => rfl
    | false => cases hskipped.mpr hr
  refine ⟨hruns, ?_⟩
  clear hskipped
  induction xs generalizing a b with
  | nil =>
    rw [List.nil_append] at h
    cases hperform : perform c w dir stage a b with
    | mk result b₂ =>
      cases result with
      | error e =>
        rw [runStages_cons_of_error hruns hperform] at h
        simp at h
      | ok a₂ => exact ⟨a, b, a₂, b₂, rfl, hperform⟩
  | cons x xs ih =>
    obtain ⟨hx, hxs⟩ := List.ne_and_not_mem_of_not_mem_cons hfirst
    rw [List.cons_append] at h
    cases hrunsx : c.runs x with
    | true =>
      cases hperform : perform c w dir x a b with
      | mk result b' =>
        cases result with
        | error e =>
          rw [runStages_cons_of_error hrunsx hperform] at h
          simp [hx] at h
        | ok a' =>
          rw [runStages_cons_of_ok hrunsx hperform] at h
          obtain ⟨a₁, b₁, a₂, b₂, hthrough, hstage⟩ := ih hxs (by simpa [hx] using h)
          exact ⟨a₁, b₁, a₂, b₂, (through_cons_of_ok hrunsx hperform).trans hthrough, hstage⟩
    | false =>
      rw [runStages_cons_of_not_runs hrunsx] at h
      rw [through_cons_of_not_runs hrunsx]
      exact ih hxs (by simpa using h)

def opening (dir : Path) (files : FileTree) : Bench := ⟨(files.makeDirectory dir).2, []⟩

theorem run_of_made {files : FileTree} (h : (files.makeDirectory dir).1 = .ok ()) :
    run c w dir files =
      ((runStages c w dir Stage.all {} (opening dir files)).1,
        { (runStages c w dir Stage.all {} (opening dir files)).2 with
          files := clear (runStages c w dir Stage.all {} (opening dir files)).2.files dir }) := by
  have hmade : files.makeDirectory dir = (.ok (), (opening dir files).files) := Prod.ext h rfl
  rw [run, hmade]
  rfl

theorem run_of_not_made {files : FileTree} {e : FileError} (h : (files.makeDirectory dir).1 = .error e) :
    run c w dir files = (noWorkDirectory dir e, ⟨files, []⟩) := by
  have hmade : files.makeDirectory dir = (.error e, files) := Prod.ext h (FileTree.makeDirectory_of_error h)
  rw [run, hmade]

end NativeBuild.Build
