import NativeBuild.Proofs.Build.Linking
import NativeBuild.Proofs.Files.Patching
import NativeBuild.Proofs.Link.StartupObjects
import NativeBuild.Proofs.Target.Canonical

namespace NativeBuild

namespace TargetRequest

variable {request : TargetRequest} {host : Host} {profile : Profile}

theorem resolve_isPe (h : request.resolve host = .ok profile) (hlibc : profile.libc.isZkvm = true) :
    profile.os.isPe = false := by
  have hfits := resolve_fits h
  rw [fits, Bool.and_eq_true] at hfits
  have hvalid := hfits.1
  revert hlibc hvalid
  cases profile.os <;> cases profile.libc <;> decide

end TargetRequest

namespace Build

variable {c : BuildContext} {w : Workshop} {dir : Path} {a a' : Artifacts} {b b' : Bench} {found : FileTree}

theorem patchStage_eq_ok (h : patchStage c a b = (.ok a', b')) :
    (∀ p ∈ c.patchTargets, b.files.isFile p = true) ∧
      b'.files = (Patch.applyAll b.files c.patchTargets).2 := by
  rw [patchStage] at h
  cases happly : Patch.applyAll b.files c.patchTargets with
  | mk result files =>
    rw [happly] at h
    cases result with
    | error e => cases h
    | ok _ =>
      obtain ⟨-, rfl⟩ := Prod.mk.inj h
      exact ⟨Patch.applyAll_eq_ok_iff.mp (congrArg Prod.fst happly), rfl⟩

end Build

def SettledFile (t : FileTree) (p : Path) : Prop :=
  ∃ bytes, t.read p = .ok bytes ∧ ∀ v, bytes[0x30]? = some v → v ≠ 4 ∧ v ≠ 5

structure BuildContext.StartupAgreed (c : BuildContext) : Prop where
  traced : ∀ token ∈ c.linkCommand.args, NamesStartup token →
    c.linkRequest.Given token ∨ Path.mk token ∈ c.startupObjects
  named : ∀ p ∈ c.startupObjects, p.text ∈ c.linkCommand.args
  program : c.policy.isShared = false → ∃ crt1 crti, c.startupObjects = [crt1, crti] ∧
    NamesFile "crt1.o" crt1.text ∧ NamesFile "crti.o" crti.text
  library : c.policy.isShared = true → c.startupObjects = []

/-- The linker finds the files as the stages before the patch left them, with the patch gone over the
object and the startup objects. -/
structure Build.PatchedInputs (c : BuildContext) (w : Workshop) (dir : Path) (files found : FileTree) :
    Prop where
  patched : ∃ a b, through c w dir Stage.beforePatch {} (opening dir files) = some (a, b) ∧
    found = (Patch.applyAll b.files c.patchTargets).2
  object : SettledFile found c.paths.object
  startup : ∀ p ∈ c.startupObjects, SettledFile found p

namespace BuildContext

variable {c : BuildContext}

theorem startupAgreed (hlibc : c.profile.libc.isZkvm = true) (hpe : c.profile.os.isPe = false) :
    c.StartupAgreed := by
  have hargs : c.linkCommand.args = c.linkRequest.elfArgs := by
    show LinkRequest.args _ = _
    rw [LinkRequest.args, show c.linkRequest.profile.os.isPe = false from hpe, if_neg Bool.false_ne_true]
  have htokens := startupObjects_eq hlibc
  constructor
  case traced =>
    intro token ht hnames
    rw [hargs] at ht
    obtain hgiven | hstartup := LinkRequest.traced_elfArgs (r := c.linkRequest) hlibc token ht hnames
    · exact .inl hgiven
    · rw [← htokens, List.mem_map] at hstartup
      obtain ⟨p, hp, rfl⟩ := hstartup
      exact .inr hp
  case named =>
    intro p hp
    rw [hargs]
    apply LinkRequest.startupTokens_subset (r := c.linkRequest) hlibc
    rw [← htokens]
    exact List.mem_map_of_mem hp
  case program =>
    intro hshared
    have hexecutable : c.policy.linkType.isExecutable = true := by
      rw [LinkType.isExecutable, bne, Bool.not_eq_true']
      exact hshared
    rw [startupObjects, hlibc, hexecutable]
    exact ⟨_, _, rfl, Path.namesFile_child _ (by decide), Path.namesFile_child _ (by decide)⟩
  case library =>
    intro hshared
    have hexecutable : c.policy.linkType.isExecutable = false := by
      rw [LinkType.isExecutable, bne, Bool.not_eq_false']
      exact hshared
    rw [startupObjects, hexecutable, Bool.and_false]
    rfl

end BuildContext

namespace Build

variable {c : BuildContext} {w : Workshop} {dir : Path} {a a' : Artifacts} {b b' : Bench} {found : FileTree}

theorem patched_of_through (harch : c.profile.arch.needsAbiPatch = true) (hlinks : c.links = true)
    (h : through c w dir Stage.beforeLink a b = some (a', b')) :
    ∃ a₁ b₁, through c w dir Stage.beforePatch a b = some (a₁, b₁) ∧
      (∀ p ∈ c.patchTargets, b₁.files.isFile p = true) ∧
      b'.files = (Patch.applyAll b₁.files c.patchTargets).2 := by
  have hruns : c.runs .platformPatch = true := by rw [BuildContext.runs, hlinks, harch]; rfl
  rw [Stage.beforeLink_eq, through_append_eq_some_iff] at h
  obtain ⟨a₁, b₁, hbefore, hpatch⟩ := h
  obtain ⟨a₂, b₂, hperform, hrest⟩ := (through_cons_of_runs hruns).mp hpatch
  obtain ⟨rfl, rfl⟩ := Prod.mk.inj (Option.some.inj hrest)
  exact ⟨a₁, b₁, hbefore, patchStage_eq_ok hperform⟩

theorem settledFile_applyAll {t : FileTree} {ps : List Path} {p : Path} (hall : ∀ p ∈ ps, t.isFile p = true)
    (hp : p ∈ ps) : SettledFile (Patch.applyAll t ps).2 p := by
  obtain ⟨bytes, hread⟩ := Patch.read_applyAll hall hp
  refine ⟨_, hread, fun v hv => ?_⟩
  have hpatchable := Patch.settled_not_patchable hv
  rw [Patch.isPatchable, Bool.or_eq_false_iff, beq_eq_false_iff_ne, beq_eq_false_iff_ne] at hpatchable
  exact hpatchable

theorem patched_of_link (harch : c.profile.arch.needsAbiPatch = true)
    (hsteps : c.linkCommand ∉ c.postLinkSteps.commands) {files : FileTree} {e : Event}
    (he : e ∈ (run c w dir files).2.trace) (hran : e.deed = .ran c.linkCommand found) :
    ∃ a b, through c w dir Stage.beforePatch {} (opening dir files) = some (a, b) ∧
      (∀ p ∈ c.patchTargets, b.files.isFile p = true) ∧
      found = (Patch.applyAll b.files c.patchTargets).2 := by
  cases hmade : (files.makeDirectory dir).1 with
  | error error =>
    have hrun : run c w dir files = (noWorkDirectory dir error, ⟨(files.makeDirectory dir).2, []⟩) := by
      rw [run, show files.makeDirectory dir = (.error error, _) from Prod.ext hmade rfl]
    rw [hrun] at he
    exact absurd he List.not_mem_nil
  | ok _ =>
    rw [run_of_made hmade] at he
    obtain ⟨hlinks, a', b', hthrough, rfl⟩ := through_of_link hsteps rfl he hran
    exact patched_of_through harch hlinks hthrough

theorem link_finds_patched {request : TargetRequest} {host : Host}
    (hprofile : request.resolve host = .ok c.profile) (harch : c.profile.arch = .riscv64) (w : Workshop)
    (dir : Path) (files : FileTree) :
    (∀ e ∈ (run c w dir files).2.trace, ∀ found, e.deed = .ran c.linkCommand found →
      PatchedInputs c w dir files found) ∧
    (c.profile.libc.isZkvm = true → c.StartupAgreed) ∧
    ∀ a b, through c w dir Stage.beforePatch {} (opening dir files) = some (a, b) →
      ∀ p ∈ c.patchTargets, b.files.isFile p = false →
        c.linkCommand ∉ (run c w dir files).2.trace.commands := by
  have hpatch : c.profile.arch.needsAbiPatch = true := by rw [harch]; rfl
  have hpe := fun hlibc => TargetRequest.resolve_isPe hprofile hlibc
  have hsteps := BuildContext.linkCommand_not_mem hpe
  refine ⟨fun e he found hran => ?_, fun hlibc => BuildContext.startupAgreed hlibc (hpe hlibc), ?_⟩
  · obtain ⟨a, b, hthrough, hall, rfl⟩ := patched_of_link hpatch hsteps he hran
    exact ⟨⟨a, b, hthrough, rfl⟩, settledFile_applyAll hall List.mem_cons_self,
      fun p hp => settledFile_applyAll hall (List.mem_cons_of_mem _ hp)⟩
  · intro a b hthrough p hp hclosed hmem
    obtain ⟨e, he, found, hran⟩ := Trace.mem_commands_iff.mp hmem
    obtain ⟨a', b', hthrough', hall, -⟩ := patched_of_link hpatch hsteps he hran
    obtain ⟨rfl, rfl⟩ := Prod.mk.inj (Option.some.inj (hthrough.symm.trans hthrough'))
    rw [hall p hp] at hclosed
    cases hclosed

end Build

def BuildContext.image : BuildContext where
  profile := ⟨.linux, .riscv64, .zisk, []⟩
  policy := Policy.resolve { stdlib := .none } ⟨.linux, .riscv64, .zisk, []⟩
  tools := .bare
  paths := BuildPaths.ofOutput ⟨"/app"⟩ ⟨.linux, .riscv64, .zisk, []⟩ .executable none false
  libDirs := [⟨"/lib"⟩]
  sources := [⟨"/app.cs"⟩]
  references := []
  runtimeReferences := ∅
  defines := []
  langVersion := none
  ldflags := []
  extraInputs := []

def hardFloat : List UInt8 := List.replicate 64 5

def FileTree.withFile (t : FileTree) (directories : List String) (name : String) (bytes : List UInt8) : FileTree :=
  ((directories.inits.drop 1).foldl (fun t d => t.set d .directory) t).set (directories ++ [name])
    (.file bytes false)

def FileTree.installation : FileTree :=
  (FileTree.empty.withFile ["home", "lib", "linux", "riscv64", "zisk"] "crt1.o" hardFloat).withFile ["lib"] "crti.o"
    hardFloat

def Workshop.hardFloat : Workshop where
  compile _ files request := ⟨.ok ⟨request.output, []⟩, files, {}⟩
  load _ files _ := ⟨.ok ({} : ProgramDocument).graph, files, {}⟩
  generate _ files request _ _ :=
    ⟨.ok ⟨request.object, []⟩, (files.write request.object NativeBuild.hardFloat).2, {}⟩
  execute _ files _ := ⟨.ok 0, files, {}⟩

theorem Build.image_link_finds_patched :
    (run .image .hardFloat ⟨"/w"⟩ .installation).2.trace.commands.map (·.program) = [⟨"ld"⟩, ⟨"patch"⟩] ∧
      (∀ e ∈ (run .image .hardFloat ⟨"/w"⟩ .installation).2.trace, ∀ found,
        e.deed = .ran BuildContext.image.linkCommand found →
          PatchedInputs .image .hardFloat ⟨"/w"⟩ .installation found) ∧
      BuildContext.image.StartupAgreed := by
  have hprofile : TargetRequest.resolve { arch := some "riscv64", libc := some "zisk" } {} =
      .ok BuildContext.image.profile := by decide +kernel
  obtain ⟨hfound, hagreed, -⟩ := link_finds_patched hprofile rfl .hardFloat ⟨"/w"⟩ .installation
  refine ⟨?_, hfound, hagreed rfl⟩
  decide +kernel

end NativeBuild
