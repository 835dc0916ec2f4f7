import NativeBuild.Proofs.Build.PatchedInputs
import NativeBuild.Proofs.Build.Separation
import NativeBuild.Proofs.Files.Room

/-!
The frame of a build: what it leaves at every place when its helpers keep to their own files. It is as it
was, but for the object, the exports, one byte of a startup object, and directories that are made on the way
to exports that are not beside the object.
-/

namespace NativeBuild

open FileTree

namespace FileTree

variable {s t : FileTree} {p : Path} {bytes : List UInt8} {v : Place}

structure SameBut (p : Path) (s t : FileTree) : Prop where
  workingDirectory : t.workingDirectory = s.workingDirectory
  node? : ∀ v, t.node? v = s.node? v ∨ p.placeFrom s.workingDirectory = v ∧ s.node? v ≠ some .directory

theorem SameBut.refl (p : Path) (t : FileTree) : SameBut p t t := ⟨rfl, fun _ => .inl rfl⟩

theorem write_sameBut : SameBut p t (t.write p bytes).2 := by
  cases hwrite : (t.write p bytes).1 with
  | error e =>
    rw [write_of_error hwrite]
    exact .refl p t
  | ok _ =>
    refine ⟨workingDirectory_write, fun v => ?_⟩
    obtain ⟨place, hplace, hfile, -⟩ := write_of_ok hwrite
    rw [node?_write hwrite]
    split
    · next hv => exact .inr ⟨hv, by rwa [← hv, placeFrom_of_locate hplace]⟩
    · exact .inl rfl

theorem node?_writeText_of_ne (text : String) (hv : p.placeFrom t.workingDirectory ≠ v) :
    (t.writeText p text).2.node? v = t.node? v ∨
      (v ∈ t.roomPlaces (roomFor p) ∧ t.node? v = none ∧ (t.writeText p text).2.node? v = some .directory) ∧
        ∀ q place, t.locate q = .ok place → p.parent? ≠ q.parent? := by
  have hgrown := prepareRoom_grown (t := t) p
  have hprepared : (t.writeText p text).2.node? v = (t.prepareRoom p).2.node? v := by
    cases hwrite : (t.writeText p text).1 with
    | error e => rw [writeText_of_error hwrite]
    | ok _ =>
      obtain ⟨-, hwritten⟩ := writeText_of_ok hwrite
      rw [← hgrown.workingDirectory] at hv
      rw [snd_writeText_of_ok hwrite, node?_write (congrArg Prod.fst hwritten), if_neg hv]
  rw [hprepared]
  refine (hgrown.node? v).imp_right (fun hmade => ⟨hmade, fun q place hplace hbeside => ?_⟩)
  obtain ⟨-, hnone, hdirectory⟩ := hmade
  rw [prepareRoom_beside hbeside hplace, hnone] at hdirectory
  cases hdirectory

end FileTree

theorem Node.settled_eq (node : Node) :
    node.settled = node ∨ ∃ bytes executable flag, node = .file bytes executable ∧ bytes[0x30]? = some flag ∧
      (flag = 4 ∨ flag = 5) ∧ node.settled = .file (bytes.set 0x30 0) executable := by
  cases node with
  | directory => exact .inl rfl
  | file bytes executable =>
    by_cases hflag : ∃ flag, bytes[Patch.flagOffset]? = some flag ∧ Patch.isPatchable flag = true
    · obtain ⟨flag, hat, hpatchable⟩ := hflag
      have hvalue : flag = 4 ∨ flag = 5 := by simpa [Patch.isPatchable] using hpatchable
      refine .inr ⟨bytes, executable, flag, rfl, hat, hvalue, ?_⟩
      rw [settled, Patch.settled_of_patchable hat hpatchable]
      rfl
    · refine .inl ?_
      rw [settled, Patch.settled_of_not_patchable]
      intro flag hat
      rw [← Bool.not_eq_true]
      exact fun hpatchable => hflag ⟨flag, hat, hpatchable⟩

structure BuildContext.PatchesStartup (c : BuildContext) : Prop where
  arch : c.profile.arch = .riscv64
  links : c.links = true
  libc : c.profile.libc = .zisk ∨ c.profile.libc = .ziskSim
  program : c.policy.linkType ≠ .sharedLibrary

theorem BuildContext.PatchesStartup.of_runs {c : BuildContext} (hruns : c.runs .platformPatch = true) {p : Path}
    (hp : p ∈ c.startupObjects) : c.PatchesStartup := by
  rw [runs, Bool.and_eq_true] at hruns
  obtain ⟨hlinks, harch⟩ := hruns
  rw [startupObjects] at hp
  split at hp
  · next hstartup =>
    obtain ⟨hlibc, hexecutable⟩ := (Bool.and_eq_true _ _).mp hstartup
    constructor
    case arch =>
      revert harch
      cases c.profile.arch <;> decide
    case links => exact hlinks
    case libc =>
      revert hlibc
      cases c.profile.libc <;> decide
    case program =>
      revert hexecutable
      cases c.policy.linkType <;> decide
  · cases hp

namespace Build

/-- What a build may make of the node at a place. Object and exports are its own; a startup object can lose
the byte that states its convention; and where exports are not beside the object, directories on their way
can be made. -/
inductive FrameAt (c : BuildContext) (s t : FileTree) (v : Place) : Prop where
  | kept (same : t.node? v = s.node? v)
  | object (place : c.paths.object.placeFrom s.workingDirectory = v)
  | exports {p : Path} (listed : c.paths.exports = some p) (place : p.placeFrom s.workingDirectory = v)
  | startup {p : Path} {bytes : List UInt8} {executable : Bool} {flag : UInt8} (patches : c.PatchesStartup)
      (target : p ∈ c.startupObjects) (place : p.placeFrom s.workingDirectory = v)
      (before : s.node? v = some (.file bytes executable)) (stated : bytes[0x30]? = some flag)
      (hard : flag = 4 ∨ flag = 5) (after : t.node? v = some (.file (bytes.set 0x30 0) executable))
  | room {p : Path} (listed : c.paths.exports = some p) (apart : p.parent? ≠ c.paths.object.parent?)
      (way : v ∈ s.roomPlaces (roomFor p)) (before : s.node? v = none) (after : t.node? v = some .directory)

variable {c : BuildContext} {w : Workshop} {dir p : Path} {r s t : FileTree} {v d : Place} {a : Artifacts}
  {b : Bench}

theorem FrameAt.trans (h : FrameAt c r s v) (h' : FrameAt c s t v) (hw : s.workingDirectory = r.workingDirectory) :
    FrameAt c r t v := by
  cases h with
  | object place => exact .object place
  | exports listed place => exact .exports listed place
  | kept same =>
    cases h' with
    | kept same' => exact .kept (same'.trans same)
    | object place => exact .object (hw ▸ place)
    | exports listed place => exact .exports listed (hw ▸ place)
    | startup patches target place before stated hard after =>
      exact .startup patches target (hw ▸ place) (same ▸ before) stated hard after
    | room listed apart way before after =>
      rw [roomPlaces, hw] at way
      exact .room listed apart way (same ▸ before) after
  | startup patches target place before stated hard after =>
    cases h' with
    | kept same' => exact .startup patches target place before stated hard (same'.trans after)
    | object place => exact .object (hw ▸ place)
    | exports listed place => exact .exports listed (hw ▸ place)
    | startup _ _ _ before' stated' hard' _ =>
      -- the byte was cleared before, so it states nothing any more
      obtain ⟨rfl, -⟩ := Node.file.inj (Option.some.inj (after.symm.trans before'))
      rw [List.getElem?_set_self (List.getElem?_eq_some_iff.mp stated).1] at stated'
      obtain rfl := Option.some.inj stated'
      exact absurd hard' (by decide)
    | room _ _ _ before' _ =>
      rw [after] at before'
      cases before'
  | room listed apart way before after =>
    cases h' with
    | kept same' => exact .room listed apart way before (same'.trans after)
    | object place => exact .object (hw ▸ place)
    | exports listed place => exact .exports listed (hw ▸ place)
    | startup _ _ _ before' _ _ _ =>
      rw [after] at before'
      cases before'
    | room _ _ _ before' _ =>
      rw [after] at before'
      cases before'

theorem FrameAt.of_intermediate (hp : p ∈ intermediates c) (hv : p.placeFrom s.workingDirectory = v) :
    FrameAt c s t v := by
  obtain rfl | hexports := List.mem_cons.mp hp
  · exact .object hv
  · exact .exports (Option.mem_toList.mp hexports) hv

theorem parent?_exports {output : Path} {profile : Profile} {linkType : LinkType} {map : Option Path}
    {analyse : Bool} (hpaths : c.paths = .ofOutput output profile linkType map analyse)
    (hexports : c.paths.exports = some p) : p.parent? = c.paths.object.parent? := by
  have hobject : c.paths.object = output.withExtension profile.os.objectExtension := by rw [hpaths]; rfl
  have hlisted : c.paths.exports = if linkType = .sharedLibrary then
      some (output.withExtension (BuildPaths.exportsExtension profile.os)) else none := by rw [hpaths]; rfl
  rw [hlisted] at hexports
  split at hexports
  · rw [← Option.some.inj hexports, hobject, Path.parent?_withExtension (BuildPaths.exportsExtension_plain _),
      Path.parent?_withExtension (Os.objectExtension_plain _)]
  · cases hexports

theorem FrameAt.node?_none {output : Path} {profile : Profile} {linkType : LinkType} {map : Option Path}
    {analyse : Bool} (h : FrameAt c s t v) (hpaths : c.paths = .ofOutput output profile linkType map analyse)
    (hplace : ∀ p ∈ intermediates c, p.placeFrom s.workingDirectory ≠ v) (hnone : s.node? v = none) :
    t.node? v = none := by
  cases h with
  | kept same => exact same.trans hnone
  | object place => exact absurd place (hplace _ object_mem)
  | exports listed place => exact absurd place (hplace _ (exports_mem listed))
  | startup _ _ _ before _ _ _ =>
    rw [hnone] at before
    cases before
  | room listed apart _ _ _ => exact absurd (parent?_exports hpaths listed) apart

structure Framed (c : BuildContext) (d : Place) (s t : FileTree) : Prop where
  workingDirectory : t.workingDirectory = s.workingDirectory
  directory : ∀ v, ¬ d <+: v → s.node? v = some .directory → t.node? v = some .directory
  node? : ∀ v, ¬ d <+: v → FrameAt c s t v

namespace Framed

theorem refl (t : FileTree) : Framed c d t t := ⟨rfl, fun _ _ h => h, fun _ _ => .kept rfl⟩

theorem trans (h : Framed c d r s) (h' : Framed c d s t) : Framed c d r t where
  workingDirectory := h'.workingDirectory.trans h.workingDirectory
  directory v hv hdirectory := h'.directory v hv (h.directory v hv hdirectory)
  node? v hv := (h.node? v hv).trans (h'.node? v hv) h.workingDirectory

theorem of_sameOutside (h : SameOutside d t s) : Framed c d s t where
  workingDirectory := h.workingDirectory
  directory v hv hdirectory := (h.node? v hv).trans hdirectory
  node? v hv := .kept (h.node? v hv)

theorem of_sameBut (h : SameBut c.paths.object s t) : Framed c d s t where
  workingDirectory := h.workingDirectory
  directory v _ hdirectory := by
    obtain hsame | ⟨-, hfile⟩ := h.node? v
    · exact hsame.trans hdirectory
    · exact absurd hdirectory hfile
  node? v _ := by
    obtain hsame | ⟨hv, -⟩ := h.node? v
    · exact .kept hsame
    · exact .object hv

theorem removeQuietly (hp : p ∈ intermediates c) : Framed c d t (t.removeQuietly p) where
  workingDirectory := workingDirectory_removeQuietly
  directory _ _ := directory_removeQuietly.mpr
  node? v _ := by
    by_cases hv : t.isFile p = true ∧ p.placeFrom t.workingDirectory = v
    · exact .of_intermediate hp hv.2
    · exact .kept (by rw [node?_removeQuietly, if_neg hv])

theorem applyAll (hruns : c.runs .platformPatch = true) : Framed c d t (Patch.applyAll t c.patchTargets).2 where
  workingDirectory := Patch.applyAll_alike.workingDirectory
  directory _ _ := Patch.applyAll_alike.directory_iff.mpr
  node? v _ := by
    by_cases hv : v ∈ (c.patchTargets.takeWhile t.isFile).map (·.placeFrom t.workingDirectory)
    · obtain ⟨p, hp, hplace⟩ := List.mem_map.mp hv
      have hpatched : (Patch.applyAll t c.patchTargets).2.node? v = (t.node? v).map Node.settled := by
        rw [Patch.node?_applyAll, if_pos hv]
      obtain rfl | hstartup := List.mem_cons.mp ((List.takeWhile_sublist _).subset hp)
      · exact .object hplace
      · cases hnode : t.node? v with
        | none => exact .kept (by rw [hpatched, hnode]; rfl)
        | some node =>
          rw [hnode, Option.map_some] at hpatched
          obtain hsame | ⟨bytes, executable, flag, rfl, hstated, hhard, hsettled⟩ := node.settled_eq
          · exact .kept (by rw [hpatched, hsame, hnode])
          · rw [hsettled] at hpatched
            exact .startup (.of_runs hruns hstartup) hstartup hplace hnode hstated hhard hpatched
    · exact .kept (by rw [Patch.node?_applyAll, if_neg hv])

theorem writeText (hobject : t.isFile c.paths.object = true) (hexports : c.paths.exports = some p) (text : String) :
    Framed c d t (t.writeText p text).2 where
  workingDirectory := workingDirectory_writeText
  directory _ _ := directory_writeText
  node? v _ := by
    by_cases hv : p.placeFrom t.workingDirectory = v
    · exact .exports hexports hv
    · obtain hsame | ⟨⟨hway, hnone, hdirectory⟩, hapart⟩ := node?_writeText_of_ne text hv
      · exact .kept hsame
      · obtain ⟨-, place, hplace, -⟩ := isFile_iff.mp hobject
        exact .room hexports (hapart _ place hplace) hway hnone hdirectory

end Framed

structure Contained (c : BuildContext) (w : Workshop) (dir : Path) : Prop where
  compile : ∀ trace t, SameOutside (dir.placeFrom t.workingDirectory)
    (w.compile trace t (c.frontEndRequest (dir.child c.ilName))).files t
  load : ∀ trace t il, SameBut c.paths.object t (w.load trace t (c.codegenRequest il)).files
  generate : ∀ trace t il program scan,
    SameBut c.paths.object t (w.generate trace t (c.codegenRequest il) program scan).files
  output : ∀ trace t il program scan output,
    (w.generate trace t (c.codegenRequest il) program scan).result = .ok output → output.object = c.paths.object
  execute : ∀ trace t, ∀ command ∈ c.commands, (w.execute trace t command).files = t

theorem Contained.stage (h : Contained c w dir) (hd : dir.placeFrom s.workingDirectory = d) {stage : Stage}
    (hemit : stage ≠ .objectEmit) (hruns : c.runs stage = true) : StageKeeps c w dir stage (Framed c d s) := by
  have hload (trace : Trace) (t : FileTree) (il : Path) (ht : Framed c d s t) :=
    ht.trans (.of_sameBut (h.load trace t il))
  have htools (trace : Trace) (t : FileTree) (command : Command) (hasked : command ∈ c.commands)
      (ht : Framed c d s t) : Framed c d s (w.execute trace t command).files := by
    rw [h.execute trace t command hasked]
    exact ht
  cases stage with
  | frontEndCompile =>
    refine compileStage_keeps (fun trace t ht => ht.trans (.of_sameOutside ?_))
    rw [← hd, ← ht.workingDirectory]
    exact h.compile trace t
  | wholeProgramScan => exact scanStage_keeps hload
  | codegen =>
    exact codegenStage_keeps hload
      (fun trace t il program scan ht => ht.trans (.of_sameBut (h.generate trace t il program scan)))
  | objectEmit => exact absurd rfl hemit
  | platformPatch => exact patchStage_keeps (fun t ht => ht.trans (.applyAll hruns))
  | link =>
    exact linkStage_keeps (fun trace t => htools trace t _ List.mem_cons_self)
      (fun _ p hp t ht => ht.trans (.removeQuietly hp))
  | postLinkFixups =>
    exact fixupStage_keeps (fun trace t command hstep => htools trace t command (List.mem_cons_of_mem _ hstep))

theorem Contained.runStages (h : Contained c w dir) (hd : dir.placeFrom b.files.workingDirectory = d) :
    Framed c d b.files (runStages c w dir Stage.all a b).2.files := by
  have hkeeps (stages : List Stage) (hstages : .objectEmit ∉ stages) (a : Artifacts) (b' : Bench)
      (hb : Framed c d b.files b'.files) : Framed c d b.files (Build.runStages c w dir stages a b').2.files :=
    runStages_keeps_of_runs _ (fun stage hmem hruns => h.stage hd (fun heq => hstages (heq ▸ hmem)) hruns)
      (fun _ t ht => ht.trans (.removeQuietly object_mem)) hb
  have hbefore := hkeeps Stage.beforeEmit (by decide) a b (.refl _)
  rw [Stage.all_eq_beforeEmit]
  cases hthrough : through c w dir Stage.beforeEmit a b with
  | none => rwa [(runStages_of_not_through _ hthrough).1]
  | some m =>
    obtain ⟨a₀, b₀⟩ := m
    obtain ⟨trace, t, il, program, scan, output, hresult, houtput⟩ := through_beforeEmit_output hthrough
    rw [snd_runStages_of_through hthrough] at hbefore
    -- only at emission is the object known to be there, so that nothing is made for exports beside it
    have hemitted : Framed c d b.files (emitStage c a₀ b₀).2.files := by
      apply emitStage_keeps_from (fun output' exports houtput' hfile hexports text => ?_) hbefore
      obtain rfl := Option.some.inj (houtput.symm.trans houtput')
      rw [h.output _ _ _ _ _ _ hresult] at hfile
      exact hbefore.trans (.writeText hfile hexports text)
    rw [runStages_of_through hthrough]
    exact runStages_cons_keeps _ rfl (fun _ t ht => ht.trans (.removeQuietly object_mem)) hemitted
      (hkeeps _ (by decide))

theorem run_frame (h : Contained c w dir) (files : FileTree) (v : Place) :
    FrameAt c files (run c w dir files).2.files v := by
  cases hmade : (files.makeDirectory dir).1 with
  | error e =>
    rw [run_of_not_made hmade]
    exact .kept rfl
  | ok _ =>
    let d := dir.placeFrom files.workingDirectory
    have hopened : Framed c d files (opening dir files).files := by
      refine .of_sameOutside ⟨workingDirectory_makeDirectory, fun v hv => ?_⟩
      rw [opening, node?_makeDirectory hmade, if_neg]
      rintro rfl
      exact hv List.prefix_rfl
    have hd : dir.placeFrom (opening dir files).files.workingDirectory = d := by rw [hopened.workingDirectory]
    have hframed := hopened.trans (h.runStages (a := {}) hd)
    have hclear := node?_clear_of_made hmade hframed.workingDirectory hframed.directory
    rw [run_of_made hmade]
    by_cases hv : d <+: v
    · exact .kept (by rw [hclear, if_pos hv])
    · exact (hframed.node? v hv).trans (.kept (by rw [hclear, if_neg hv])) hframed.workingDirectory

theorem hardFloat_contained : Contained .image .hardFloat ⟨"/w"⟩ where
  compile _ _ := .refl _ _
  load _ _ _ := .refl _ _
  generate _ _ _ _ _ := write_sameBut
  output _ _ _ _ _ _ hresult := by
    rw [← Except.ok.inj hresult]
    rfl
  execute _ _ _ _ := rfl

theorem image_run_frame :
    Contained .image .hardFloat ⟨"/w"⟩ ∧
      (∀ v, FrameAt .image .installation (run .image .hardFloat ⟨"/w"⟩ .installation).2.files v) ∧
      (run .image .hardFloat ⟨"/w"⟩ .installation).2.files.node? ["lib", "crti.o"] =
        some (.file (hardFloat.set 0x30 0) false) := by
  refine ⟨hardFloat_contained, run_frame hardFloat_contained .installation, ?_⟩
  decide +kernel

end Build

def BuildContext.sunken : BuildContext :=
  { library with paths := { library.paths with exports := some ⟨"/new/app.txt"⟩ } }

theorem Build.unlinked_contained : Contained .sunken .unlinked ⟨"/w"⟩ where
  compile _ _ := .refl _ _
  load _ _ _ := .refl _ _
  generate _ _ _ _ _ := write_sameBut
  output _ _ _ _ _ _ hresult := by
    rw [← Except.ok.inj hresult]
    rfl
  execute _ _ _ _ := rfl

theorem Build.sunken_makes_room :
    ∃ c w dir files v, Contained c w dir ∧ (∀ p ∈ intermediates c, p.placeFrom files.workingDirectory ≠ v) ∧
      files.node? v = none ∧ (run c w dir files).2.files.node? v = some .directory := by
  refine ⟨.sunken, .unlinked, ⟨"/w"⟩, .empty, ["new"], unlinked_contained, ?_, ?_, ?_⟩ <;> decide +kernel

end NativeBuild
