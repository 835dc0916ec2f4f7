import NativeBuild.Proofs.Build.Intermediates
import NativeBuild.Proofs.Build.Settled
import NativeBuild.Proofs.Path.Extension

namespace NativeBuild

theorem Os.objectExtension_plain (os : Os) : Path.PlainExtension os.objectExtension := by
  cases os <;> constructor <;> decide

theorem BuildPaths.exportsExtension_plain (os : Os) : Path.PlainExtension (exportsExtension os) := by
  cases os <;> constructor <;> decide

def BuildContext.OutputApart (c : BuildContext) (cwd : Place) : Prop :=
  ∀ p ∈ Build.intermediates c, p.placeFrom cwd ≠ c.paths.output.placeFrom cwd

instance (c : BuildContext) (cwd : Place) : Decidable (c.OutputApart cwd) :=
  inferInstanceAs (Decidable (∀ p ∈ Build.intermediates c, _))

theorem BuildOptions.paths_of_prepare {o : BuildOptions} {t : FileTree} {cwd : Path} {tools : Tools} {host : Host}
    {c : BuildContext} (h : o.prepare t cwd tools host = .ok c) :
    c.paths = BuildPaths.ofOutput c.paths.output c.profile c.policy.linkType o.map o.analyseSize :=
  (settled_of_prepare h).paths

theorem BuildOptions.prepare_paths {o : BuildOptions} {t : FileTree} {cwd : Path} {tools : Tools} {host : Host}
    {c : BuildContext} (h : o.prepare t cwd tools host = .ok c) :
    ∃ linkType, c.paths = BuildPaths.ofOutput c.paths.output c.profile linkType o.map o.analyseSize :=
  ⟨c.policy.linkType, paths_of_prepare h⟩

theorem BuildContext.outputApart_iff {c : BuildContext} {linkType : LinkType} {map : Option Path} {analyse : Bool}
    (h : c.paths = BuildPaths.ofOutput c.paths.output c.profile linkType map analyse) (cwd : Place) :
    c.OutputApart cwd ↔ ¬ c.paths.output.Absorbs c.profile.os.objectExtension ∧
      (c.paths.exports ≠ none → ¬ c.paths.output.Absorbs (BuildPaths.exportsExtension c.profile.os)) := by
  have hobject : c.paths.object = c.paths.output.withExtension c.profile.os.objectExtension := by rw [h]; rfl
  have hexports : c.paths.exports = if linkType = .sharedLibrary then
      some (c.paths.output.withExtension (BuildPaths.exportsExtension c.profile.os)) else none := by rw [h]; rfl
  rw [OutputApart, Build.intermediates, List.forall_mem_cons, hobject, hexports, ne_eq,
    Path.placeFrom_withExtension (Os.objectExtension_plain _)]
  apply and_congr_right'
  split
  · simp [Path.placeFrom_withExtension (BuildPaths.exportsExtension_plain _)]
  · simp

namespace Build

open FileTree

variable {c : BuildContext} {w : Workshop} {dir : Path} {a : Artifacts} {b : Bench} {files : FileTree}

theorem files_run_of_not_made {e : FileError} (h : (files.makeDirectory dir).1 = .error e) :
    (run c w dir files).2.files = files := by rw [run_of_not_made h]

theorem lookup_run_of_apart {p : Path} {bytes : List UInt8} {executable : Bool}
    (hown : ∀ q ∈ ownFiles c, q.placeFrom files.workingDirectory ≠ p.placeFrom files.workingDirectory)
    (houtside : p.Outside files.workingDirectory (dir.placeFrom files.workingDirectory))
    (hsteady : ∀ s t, HelperStep c w dir s t → t.workingDirectory = s.workingDirectory)
    (hhelpers : ∀ s t, HelperStep c w dir s t → s.lookup p = .ok (.file bytes executable) →
      t.lookup p = .ok (.file bytes executable))
    (hfile : files.lookup p = .ok (.file bytes executable)) :
    (run c w dir files).2.files.lookup p = .ok (.file bytes executable) := by
  cases hmade : (files.makeDirectory dir).1 with
  | error e => rwa [files_run_of_not_made hmade]
  | ok _ =>
    have hintermediates : ∀ q ∈ intermediates c, q ∈ ownFiles c := fun q hq => List.mem_append_left _ hq
    have hkeeps : Keeps c w dir (fun t =>
        t.workingDirectory = files.workingDirectory ∧ t.lookup p = .ok (.file bytes executable)) := by
      constructor
      case helpers => exact fun s t hstep hs => ⟨(hsteady s t hstep).trans hs.1, hhelpers s t hstep hs.2⟩
      case write =>
        rintro exports hexports text t ⟨hcwd, ht⟩
        exact ⟨workingDirectory_writeText.trans hcwd,
          lookup_writeText_of_ne ht (hcwd ▸ hown _ (hintermediates _ (exports_mem hexports)))⟩
      case patch =>
        rintro t ⟨hcwd, ht⟩
        exact ⟨Patch.applyAll_alike.workingDirectory.trans hcwd,
          Patch.lookup_applyAll_of_ne ht (fun q hq => hcwd ▸ hown q (patchTargets_subset c hq))⟩
      case remove =>
        rintro - q hq t ⟨hcwd, ht⟩
        exact ⟨workingDirectory_removeQuietly.trans hcwd,
          lookup_removeQuietly_of_ne ht (hcwd ▸ hown q (hintermediates q hq))⟩
    have hopening : (opening dir files).files.lookup p = .ok (.file bytes executable) := by
      have hgrown : Grown [dir.placeFrom files.workingDirectory] files (opening dir files).files :=
        makeDirectory_grown List.mem_cons_self
      exact lookup_grown hgrown hfile
    have hlast : (runStages c w dir Stage.all {} (opening dir files)).2.files.workingDirectory =
        files.workingDirectory ∧ _ := hkeeps.runStages ⟨workingDirectory_makeDirectory, hopening⟩
    obtain ⟨hcwd, hlookup⟩ := hlast
    rw [run_of_made hmade]
    rw [← hcwd] at houtside
    exact ((sameOutside_clear _ dir).lookup houtside).trans hlookup

def linked (c : BuildContext) (w : Workshop) (dir : Path) (files : FileTree) : Option FileTree :=
  if (files.makeDirectory dir).1 = .ok () ∧ c.links = true then
    (through c w dir Stage.beforeLink {} (opening dir files)).map (fun m => (m.2.execute w c.linkCommand).2.files)
  else none

def FileWith (p : Path) (good : List UInt8 → Prop) (t : FileTree) : Prop :=
  ∃ bytes executable, t.lookup p = .ok (.file bytes executable) ∧ good bytes

theorem fileWith_removeQuietly {p q : Path} {good : List UInt8 → Prop} {t : FileTree}
    (h : FileWith p good t) (hne : q.placeFrom t.workingDirectory ≠ p.placeFrom t.workingDirectory) :
    FileWith p good (t.removeQuietly q) := by
  obtain ⟨bytes, executable, hlookup, hgood⟩ := h
  exact ⟨bytes, executable, lookup_removeQuietly_of_ne hlookup hne, hgood⟩

theorem output_run_of_linked {good : List UInt8 → Prop} {t : FileTree}
    (hapart : c.OutputApart files.workingDirectory)
    (houtside : c.paths.output.Outside files.workingDirectory (dir.placeFrom files.workingDirectory))
    (hsteady : ∀ s t, HelperStep c w dir s t → t.workingDirectory = s.workingDirectory)
    (hlater : ∀ trace t, ∀ command ∈ c.postLinkSteps.commands, FileWith c.paths.output good t →
      FileWith c.paths.output good (w.execute trace t command).files)
    (hlinked : linked c w dir files = some t) (ht : FileWith c.paths.output good t) :
    FileWith c.paths.output good (run c w dir files).2.files := by
  rw [linked] at hlinked
  split at hlinked
  case isFalse => cases hlinked
  case isTrue hgoes =>
    obtain ⟨hmade, hlinks⟩ := hgoes
    obtain ⟨⟨a, b⟩, hthrough, rfl⟩ := Option.map_eq_some_iff.mp hlinked
    have hcwd : (b.execute w c.linkCommand).2.files.workingDirectory = files.workingDirectory := by
      have hbefore : b.files.workingDirectory = files.workingDirectory := by
        rw [← snd_runStages_of_through hthrough]
        exact (runStages_workingDirectory hsteady).trans workingDirectory_makeDirectory
      exact (hsteady _ _ (.execute b.trace List.mem_cons_self)).trans hbefore
    have hremove : ∀ p ∈ intermediates c, ∀ t : FileTree,
        t.workingDirectory = files.workingDirectory ∧ FileWith c.paths.output good t →
          (t.removeQuietly p).workingDirectory = files.workingDirectory ∧
            FileWith c.paths.output good (t.removeQuietly p) := by
      rintro p hp t ⟨hw, hfile⟩
      exact ⟨workingDirectory_removeQuietly.trans hw, fileWith_removeQuietly hfile (hw ▸ hapart p hp)⟩
    have hfixups : StageKeeps c w dir .postLinkFixups (fun t =>
        t.workingDirectory = files.workingDirectory ∧ FileWith c.paths.output good t) := by
      apply fixupStage_keeps
      rintro trace t command hstep ⟨hw, hfile⟩
      exact ⟨(hsteady _ _ (.execute trace (List.mem_cons_of_mem _ hstep))).trans hw,
        hlater trace t command hstep hfile⟩
    have hstage := linkStage_keeps_from (a := a) (fun _ => hremove) ⟨hcwd, ht⟩
    have hlast : (runStages c w dir Stage.fromLink a b).2.files.workingDirectory = files.workingDirectory ∧
        FileWith c.paths.output good (runStages c w dir Stage.fromLink a b).2.files := by
      rw [Stage.fromLink_eq]
      exact runStages_cons_keeps
        (fun t => t.workingDirectory = files.workingDirectory ∧ FileWith c.paths.output good t)
        hlinks (fun _ => hremove _ object_mem) hstage
        (fun _ _ => runStages_keeps _ (List.forall_mem_singleton.mpr hfixups) (fun _ => hremove _ object_mem))
    obtain ⟨hcwd, bytes, executable, hlookup, hgood⟩ := hlast
    refine ⟨bytes, executable, ?_, hgood⟩
    rw [run_of_made hmade, Stage.all_eq_append, runStages_of_through hthrough]
    rw [← hcwd] at houtside
    exact ((sameOutside_clear _ dir).lookup houtside).trans hlookup

/-- A build keeps what the linker made and the sources that it was given, when they are none of its own
files and its helpers keep them. -/
structure Preserving (c : BuildContext) (w : Workshop) (dir : Path) (files : FileTree) : Prop where
  result : c.OutputApart files.workingDirectory →
    c.paths.output.Outside files.workingDirectory (dir.placeFrom files.workingDirectory) →
      ∀ good : List UInt8 → Prop,
        (∀ trace t, ∀ command ∈ c.postLinkSteps.commands, FileWith c.paths.output good t →
          FileWith c.paths.output good (w.execute trace t command).files) →
          ∀ t, linked c w dir files = some t → FileWith c.paths.output good t →
            FileWith c.paths.output good (run c w dir files).2.files
  sources : ∀ source ∈ c.sources,
    (∀ q ∈ ownFiles c, q.placeFrom files.workingDirectory ≠ source.placeFrom files.workingDirectory) →
      source.Outside files.workingDirectory (dir.placeFrom files.workingDirectory) →
        ∀ bytes executable, (∀ s t, HelperStep c w dir s t → s.lookup source = .ok (.file bytes executable) →
          t.lookup source = .ok (.file bytes executable)) →
          files.lookup source = .ok (.file bytes executable) →
            (run c w dir files).2.files.lookup source = .ok (.file bytes executable)

end Build

theorem BuildOptions.prepared_preserving {o : BuildOptions} {t : FileTree} {cwd : Path} {tools : Tools}
    {host : Host} {c : BuildContext} (h : o.prepare t cwd tools host = .ok c) :
    (∀ place, c.OutputApart place ↔ ¬ c.paths.output.Absorbs c.profile.os.objectExtension ∧
      (c.paths.exports ≠ none → ¬ c.paths.output.Absorbs (BuildPaths.exportsExtension c.profile.os))) ∧
      ∀ w dir files, (∀ s t, Build.HelperStep c w dir s t → t.workingDirectory = s.workingDirectory) →
        Build.Preserving c w dir files := by
  obtain ⟨linkType, hpaths⟩ := prepare_paths h
  refine ⟨BuildContext.outputApart_iff hpaths, fun w dir files hsteady => ?_⟩
  constructor
  case result =>
    exact fun hapart houtside good hlater t hlinked ht =>
      Build.output_run_of_linked hapart houtside hsteady hlater hlinked ht
  case sources =>
    exact fun source _ hown houtside bytes executable hhelpers hfile =>
      Build.lookup_run_of_apart hown houtside hsteady hhelpers hfile

def BuildOptions.program (output : Path) : BuildOptions where
  inputs := [⟨"/app.cs"⟩]
  output := some output
  linkType := some .executable
  target := { os := some "linux", arch := some "x64" }
  flags := { stdlib := .none }

def FileTree.withSource : FileTree := FileTree.empty.set ["app.cs"] (.file [1] false)

def Workshop.linking : Workshop where
  compile _ files request := ⟨.ok ⟨request.output, []⟩, files, {}⟩
  load _ files _ := ⟨.ok ({} : ProgramDocument).graph, files, {}⟩
  generate _ files request _ _ := ⟨.ok ⟨request.object, []⟩, (files.write request.object []).2, {}⟩
  execute _ files command :=
    match command.args.dropWhile (· ≠ "-o") with
    | _ :: output :: _ => ⟨.ok 0, (files.write ⟨output⟩ [1]).2, {}⟩
    | _ => ⟨.ok 0, files, {}⟩

theorem Workshop.linking_steady (c : BuildContext) (dir : Path) (s t : FileTree)
    (h : Build.HelperStep c .linking dir s t) : t.workingDirectory = s.workingDirectory := by
  cases h with
  | compile trace => rfl
  | load trace il => rfl
  | generate trace il program scan => exact FileTree.workingDirectory_write
  | execute trace asked =>
    simp only [linking]
    split
    · exact FileTree.workingDirectory_write
    · rfl

theorem Workshop.linking_keeps {c : BuildContext} {dir p : Path} {bytes : List UInt8} {executable : Bool}
    (hobject : ∀ cwd, c.paths.object.placeFrom cwd ≠ p.placeFrom cwd)
    (houtput : ∀ command ∈ c.commands, ∀ flag output rest, command.args.dropWhile (· ≠ "-o") = flag :: output :: rest →
      ∀ cwd, Path.placeFrom ⟨output⟩ cwd ≠ p.placeFrom cwd)
    (s t : FileTree) (h : Build.HelperStep c .linking dir s t) (hs : s.lookup p = .ok (.file bytes executable)) :
    t.lookup p = .ok (.file bytes executable) := by
  cases h with
  | compile trace => exact hs
  | load trace il => exact hs
  | generate trace il program scan => exact FileTree.lookup_write_of_ne hs (hobject _)
  | execute trace asked =>
    simp only [linking]
    split
    · next flag output rest hargs => exact FileTree.lookup_write_of_ne hs (houtput _ asked flag output rest hargs _)
    · exact hs

theorem Workshop.linking_keeps_source {c : BuildContext} {dir : Path} {bytes : List UInt8} {executable : Bool}
    (hcommands : c.commands = [c.linkCommand]) (hobject : c.paths.object = ⟨"/app.o"⟩)
    (hwritten : (c.linkCommand.args.dropWhile (· ≠ "-o")).tail.head? = some "/app") (s t : FileTree)
    (h : Build.HelperStep c .linking dir s t) (hs : s.lookup ⟨"/app.cs"⟩ = .ok (.file bytes executable)) :
    t.lookup ⟨"/app.cs"⟩ = .ok (.file bytes executable) := by
  have hsource (cwd : Place) : Path.placeFrom ⟨"/app.cs"⟩ cwd = ["app.cs"] := rfl
  refine linking_keeps ?_ ?_ s t h hs
  · intro cwd
    rw [hobject, hsource]
    show ["app.o"] ≠ ["app.cs"]
    decide
  · intro command hasked flag output rest hargs cwd
    rw [hcommands, List.mem_singleton] at hasked
    rw [hasked] at hargs
    rw [hargs] at hwritten
    obtain rfl : output = "/app" := Option.some.inj hwritten
    rw [hsource]
    show ["app"] ≠ ["app.cs"]
    decide

theorem BuildOptions.program_prepare_eq_ok :
    ∃ c, (program ⟨"/app"⟩).prepare .withSource ⟨"/"⟩ .bare {} = .ok c ∧ c.OutputApart [] ∧
      c.paths.output.Outside [] ["w"] ∧ c.commands = [c.linkCommand] ∧ c.sources = [⟨"/app.cs"⟩] ∧
      Build.ownFiles c = [⟨"/app.o"⟩] ∧ (c.linkCommand.args.dropWhile (· ≠ "-o")).tail.head? = some "/app" ∧
      ∃ t, Build.linked c .linking ⟨"/w"⟩ .withSource = some t ∧ t.isFile c.paths.output = true := by
  have hapart : ((program ⟨"/app"⟩).prepare .withSource ⟨"/"⟩ .bare {}).toOption.any (fun c =>
      decide (c.OutputApart []) && decide (c.paths.output.Outside [] ["w"]) && decide (c.commands = [c.linkCommand]) &&
        (Build.linked c .linking ⟨"/w"⟩ .withSource).any (·.isFile c.paths.output)) = true := by decide +kernel
  have hnames : ((program ⟨"/app"⟩).prepare .withSource ⟨"/"⟩ .bare {}).toOption.any (fun c =>
      decide (c.sources = [⟨"/app.cs"⟩]) && decide (Build.ownFiles c = [⟨"/app.o"⟩]) &&
        decide ((c.linkCommand.args.dropWhile (· ≠ "-o")).tail.head? = some "/app")) = true := by decide +kernel
  cases h : (program ⟨"/app"⟩).prepare .withSource ⟨"/"⟩ .bare {} with
  | error e =>
    rw [h] at hapart
    cases hapart
  | ok c =>
    rw [h] at hapart hnames
    simp only [Except.toOption, Option.any_some, Bool.and_eq_true, decide_eq_true_eq] at hapart hnames
    obtain ⟨⟨⟨hapart, houtside⟩, hcommands⟩, hlinked⟩ := hapart
    obtain ⟨⟨hsources, hown⟩, hwritten⟩ := hnames
    exact ⟨c, rfl, hapart, houtside, hcommands, hsources, hown, hwritten, (Option.any_eq_true _ _).mp hlinked⟩

theorem BuildOptions.program_prepared_preserving :
    ∃ c, (program ⟨"/app"⟩).prepare .withSource ⟨"/"⟩ .bare {} = .ok c ∧ c.OutputApart [] ∧
      (Build.run c .linking ⟨"/w"⟩ .withSource).2.files.isFile c.paths.output = true ∧ c.sources = [⟨"/app.cs"⟩] ∧
      ∀ source ∈ c.sources,
        (Build.run c .linking ⟨"/w"⟩ .withSource).2.files.lookup source = .ok (.file [1] false) := by
  obtain ⟨c, h, hapart, houtside, hcommands, hsources, hown, hwritten, t, ht, hfile⟩ := program_prepare_eq_ok
  have hpreserving := (prepared_preserving h).2 .linking ⟨"/w"⟩ .withSource (Workshop.linking_steady c ⟨"/w"⟩)
  refine ⟨c, h, hapart, ?_, hsources, fun source hmem => ?_⟩
  · obtain ⟨bytes, executable, hlookup⟩ := FileTree.isFile_iff_lookup.mp hfile
    have hdir : Path.placeFrom ⟨"/w"⟩ FileTree.withSource.workingDirectory = ["w"] := by decide +kernel
    have hsettled : c.postLinkSteps.commands = [] := List.cons_eq_cons.mp hcommands |>.2
    obtain ⟨bytes', executable', hlast, -⟩ := hpreserving.result hapart (hdir ▸ houtside) (fun _ => True)
      (by simp [hsettled]) t ht ⟨bytes, executable, hlookup, trivial⟩
    exact FileTree.isFile_iff_lookup.mpr ⟨bytes', executable', hlast⟩
  · obtain rfl : source = ⟨"/app.cs"⟩ := by rwa [hsources, List.mem_singleton] at hmem
    have hobject : c.paths.object = ⟨"/app.o"⟩ := by
      have hlisted : c.paths.object ∈ Build.ownFiles c := List.mem_append_left _ Build.object_mem
      rwa [hown, List.mem_singleton] at hlisted
    refine hpreserving.sources ⟨"/app.cs"⟩ hmem ?_ (by decide +kernel) [1] false ?_ (by decide +kernel)
    · rw [hown]
      decide +kernel
    · exact Workshop.linking_keeps_source hcommands hobject hwritten

theorem BuildOptions.object_program_lost :
    ∃ c, (program ⟨"/app.o"⟩).prepare .empty ⟨"/"⟩ .bare {} = .ok c ∧
      (Build.linked c .linking ⟨"/w"⟩ .empty).any (·.isFile c.paths.output) = true ∧
      (Build.run c .linking ⟨"/w"⟩ .empty).1.exitCode = 0 ∧
      (Build.run c .linking ⟨"/w"⟩ .empty).2.files.isFile c.paths.output = false := by
  have hlost : ((program ⟨"/app.o"⟩).prepare .empty ⟨"/"⟩ .bare {}).toOption.any (fun c =>
      (Build.linked c .linking ⟨"/w"⟩ .empty).any (·.isFile c.paths.output) &&
        decide ((Build.run c .linking ⟨"/w"⟩ .empty).1.exitCode = 0) &&
        !(Build.run c .linking ⟨"/w"⟩ .empty).2.files.isFile c.paths.output) = true := by decide +kernel
  cases h : (program ⟨"/app.o"⟩).prepare .empty ⟨"/"⟩ .bare {} with
  | error e =>
    rw [h] at hlost
    cases hlost
  | ok c =>
    rw [h] at hlost
    simp only [Except.toOption, Option.any_some, Bool.and_eq_true, decide_eq_true_eq, Bool.not_eq_true'] at hlost
    obtain ⟨⟨hlinked, hcode⟩, hgone⟩ := hlost
    exact ⟨c, rfl, hlinked, hcode, hgone⟩

end NativeBuild
