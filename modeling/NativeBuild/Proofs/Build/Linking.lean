import NativeBuild.Proofs.Build.Passage
import NativeBuild.Proofs.Build.ToolCommands

namespace NativeBuild

theorem Trace.mem_commands_iff {t : Trace} {command : Command} :
    command ∈ t.commands ↔ ∃ e ∈ t, ∃ found, e.deed = .ran command found := by
  rw [commands, List.mem_filterMap]
  constructor
  · rintro ⟨e, he, hcommand⟩
    split at hcommand
    · next command' found hran =>
      obtain rfl := Option.some.inj hcommand
      exact ⟨e, he, found, hran⟩
    · cases hcommand
  · rintro ⟨e, he, found, hran⟩
    exact ⟨e, he, by rw [hran]⟩

theorem Played.commands_subset {plan : List PlannedCommand} {answers : List (Command × Except String Int)}
    {exitCode : Int} (h : Played plan answers exitCode) :
    answers.map (·.1) ⊆ plan.map (·.command) := by
  induction h with
  | done => exact List.nil_subset _
  | refused p later reason => exact List.cons_subset_cons _ (List.nil_subset _)
  | failed p later code binding nonzero => exact List.cons_subset_cons _ (List.nil_subset _)
  | next p code passes rest ih => exact List.cons_subset_cons _ ih

theorem PostLinkSteps.map_command_planned (s : PostLinkSteps) : s.planned.map (·.command) = s.commands := by
  have hnoted : PlannedCommand.command ∘ Command.noted = id := rfl
  have hrequired : PlannedCommand.command ∘ Command.required = id := rfl
  rw [planned, commands, List.map_append, List.map_map, List.map_map, hnoted, hrequired, List.map_id,
    List.map_id]

def Stage.beforePatch : List Stage := all.takeWhile (· ≠ .platformPatch)

theorem Stage.beforeLink_eq : beforeLink = beforePatch ++ [Stage.platformPatch] := by decide

def Stage.beforeEmit : List Stage := all.takeWhile (· ≠ .objectEmit)

theorem Stage.beforePatch_eq : beforePatch = beforeEmit ++ [Stage.objectEmit] := by decide

theorem Stage.beforeEmit_eq : beforeEmit = [Stage.frontEndCompile, .wholeProgramScan] ++ [Stage.codegen] := by decide

theorem Stage.all_eq_beforePatch : all = beforePatch ++ Stage.platformPatch :: fromLink := by decide

theorem Stage.all_eq_beforeEmit : all = beforeEmit ++ Stage.objectEmit :: .platformPatch :: fromLink := by decide

namespace BuildContext

variable {c : BuildContext}

theorem linkCommand_args_front (hpe : c.profile.os.isPe = false) :
    c.linkCommand.args.take 1 = ["-flavor"] ∧ c.linkCommand.args[2]? ≠ some "--fix-init-array" := by
  have hargs : c.linkCommand.args = c.linkRequest.elfArgs := by
    show LinkRequest.args _ = _
    rw [LinkRequest.args, show c.linkRequest.profile.os.isPe = false from hpe, if_neg Bool.false_ne_true]
  rw [hargs, LinkRequest.elfArgs, LinkRequest.elfHead, LinkRequest.elfOptions]
  refine ⟨by simp, ?_⟩
  cases c.linkRequest.libDirs with
  | nil => simp
  | cons dir dirs =>
    have hdir : "-L" ++ dir.text ≠ "--fix-init-array" := by
      intro h
      have hchars := congrArg String.toList h
      rw [String.toList_append] at hchars
      simp at hchars
    simpa using hdir

theorem linkCommand_not_mem (hos : c.profile.libc.isZkvm = true → c.profile.os.isPe = false) :
    c.linkCommand ∉ c.postLinkSteps.commands := by
  intro hmem
  rw [PostLinkSteps.commands, List.mem_append] at hmem
  obtain hpatch | hsplit := hmem
  · rw [postLinkSteps, PostLinkSteps.plan, Option.mem_toList] at hpatch
    split at hpatch
    · next hzisk =>
      obtain ⟨-, hargs⟩ := linkCommand_args_front (hos (by rw [hzisk]; rfl))
      rw [← Option.some.inj hpatch] at hargs
      exact hargs rfl
    · cases hpatch
  · rw [postLinkSteps, PostLinkSteps.plan] at hsplit
    dsimp only at hsplit
    split at hsplit
    · next hsplits =>
      have hpe : c.profile.os.isPe = false := by
        rw [PostLinkSteps.splits, Bool.and_eq_true, Bool.not_eq_true'] at hsplits
        exact hsplits.2
      obtain ⟨hargs, -⟩ := linkCommand_args_front hpe
      rw [PostLinkSteps.splitCommands] at hsplit
      simp only [List.mem_cons, List.not_mem_nil, or_false] at hsplit
      obtain h | h | h := hsplit
      · simp [h] at hargs
      · simp [h] at hargs
      · rw [h] at hargs
        have hchars := congrArg String.toList (List.cons.inj hargs).1
        rw [String.toList_append] at hchars
        simp at hchars
    · cases hsplit

end BuildContext

namespace Build

variable {c : BuildContext} {w : Workshop} {dir : Path} {a a' : Artifacts} {b b' : Bench} {found : FileTree}

theorem not_ran_of_answers {t : Trace} (h : w.answers t = []) {e : Event} (he : e ∈ t) {command : Command} :
    e.deed ≠ .ran command found := by
  intro hran
  have hmem : command ∈ t.commands := Trace.mem_commands_iff.mpr ⟨e, he, found, hran⟩
  rw [← w.answersFrom_commands [] t, show w.answersFrom [] t = [] from h] at hmem
  exact absurd hmem List.not_mem_nil

theorem linkStage_trace (a : Artifacts) (b : Bench) :
    ∃ output, (linkStage c w a b).2.trace = b.trace ++ [⟨.ran c.linkCommand b.files, output⟩] := by
  have hcall : (b.execute w c.linkCommand).2.trace =
      b.trace ++ [⟨.ran c.linkCommand b.files, (w.execute b.trace b.files c.linkCommand).output⟩] := rfl
  refine ⟨(w.execute b.trace b.files c.linkCommand).output, ?_⟩
  rw [← hcall, linkStage]
  split
  · next e b' heq => rw [heq, discard_trace]
  · next code b' heq =>
    rw [heq]
    dsimp only
    split
    · rw [discardExports_trace, discard_trace]
    · rw [discard_trace]

theorem fromLink_trace (dir : Path) (hlinks : c.links = true) (a : Artifacts) (b : Bench) :
    ∃ (output : Output) (later : Trace), (runStages c w dir Stage.fromLink a b).2.trace =
        b.trace ++ ⟨.ran c.linkCommand b.files, output⟩ :: later ∧
      later.commands ⊆ c.postLinkSteps.commands := by
  have hruns : c.runs .link = true := hlinks
  obtain ⟨output, htrace⟩ := linkStage_trace (c := c) (w := w) a b
  rw [Stage.fromLink_eq]
  cases hlink : linkStage c w a b with
  | mk result b' =>
    rw [hlink] at htrace
    cases result with
    | error e =>
      rw [runStages_cons_of_error hruns hlink]
      refine ⟨output, [], ?_, List.nil_subset _⟩
      rw [discard_trace]
      exact htrace
    | ok a' =>
      rw [runStages_cons_of_ok hruns hlink]
      obtain ⟨later, hlater, hplayed⟩ := plays_fixups c w dir a' b' hlinks
      refine ⟨output, later, ?_, ?_⟩
      · rw [hlater, htrace, List.append_assoc]
        rfl
      · rw [← w.answersFrom_commands b'.trace later, ← PostLinkSteps.map_command_planned]
        exact hplayed.commands_subset

theorem through_of_ran (hb : b.trace = []) {e : Event} {command : Command}
    (he : e ∈ (runStages c w dir Stage.all a b).2.trace) (hran : e.deed = .ran command found) :
    c.links = true ∧ ∃ a' b', through c w dir Stage.beforeLink a b = some (a', b') ∧ e ∉ b'.trace := by
  have hnone := answers_beforeLink c w dir a b hb
  rw [Stage.all_eq_append] at he
  cases hthrough : through c w dir Stage.beforeLink a b with
  | none =>
    rw [(runStages_of_not_through _ hthrough).1] at he
    exact absurd hran (not_ran_of_answers hnone he)
  | some m =>
    obtain ⟨a', b'⟩ := m
    rw [snd_runStages_of_through hthrough] at hnone
    have hnew : e ∉ b'.trace := fun hold => not_ran_of_answers hnone hold hran
    cases hlinks : c.links with
    | false =>
      rw [runStages_of_through hthrough, runStages_fromLink_skipped c w dir a' b' hlinks] at he
      exact absurd he hnew
    | true => exact ⟨rfl, a', b', rfl, hnew⟩

theorem through_of_link (hsteps : c.linkCommand ∉ c.postLinkSteps.commands) (hb : b.trace = []) {e : Event}
    (he : e ∈ (runStages c w dir Stage.all a b).2.trace) (hran : e.deed = .ran c.linkCommand found) :
    c.links = true ∧ ∃ a' b', through c w dir Stage.beforeLink a b = some (a', b') ∧ found = b'.files := by
  obtain ⟨hlinks, a', b', hthrough, hnew⟩ := through_of_ran hb he hran
  obtain ⟨output, later, htrace, hlater⟩ := fromLink_trace (w := w) dir hlinks a' b'
  rw [Stage.all_eq_append, runStages_of_through hthrough, htrace, List.mem_append, List.mem_cons] at he
  obtain hbefore | rfl | hafter := he
  · exact absurd hbefore hnew
  · exact ⟨hlinks, a', b', hthrough, (Deed.ran.inj hran).2.symm⟩
  · exact absurd (hlater (Trace.mem_commands_iff.mpr ⟨e, hafter, found, hran⟩)) hsteps

end Build

end NativeBuild
