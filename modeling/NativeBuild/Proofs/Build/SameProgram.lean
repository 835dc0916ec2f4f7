import NativeBuild.Proofs.Build.Settled
import NativeBuild.Proofs.Build.ToolCommands

namespace NativeBuild

structure BuildOptions.Shares (b : BuildOptions) (i : IlOptions) : Prop where
  inputs : b.inputs = i.inputs
  linkType : b.linkType = i.linkType
  target : b.target = i.target
  references : b.references = i.references
  defines : b.defines = i.defines
  stdlib : b.flags.stdlib = i.stdlib
  langVersion : b.langVersion = i.langVersion
  deterministic : b.flags.deterministic = i.deterministic
  noDebugInfo : b.flags.noDebugInfo = i.noDebugInfo

structure FrontEndRequest.SameProgram (r s : FrontEndRequest) : Prop where
  sources : r.sources = s.sources
  references : r.references = s.references
  defines : r.defines = s.defines
  langVersion : r.langVersion = s.langVersion
  outputKind : r.outputKind = s.outputKind
  debugInfo : r.debugInfo = s.debugInfo
  deterministic : r.deterministic = s.deterministic

namespace BuildOptions

variable {b : BuildOptions} {i : IlOptions} {t : FileTree} {cwd : Path} {tools : Tools} {host : Host}
  {c : BuildContext}

theorem Settled.request_eq (hc : b.Settled t cwd tools host c) (h : b.Shares i) :
    i.request t cwd tools host =
      if c.sources = [] then .error (.noInputs cwd)
      else .ok { c.frontEndRequest (i.output.getD (Layout.defaultIl (Layout.outputStem c.sources cwd) c.policy.linkType))
        with optimize := i.optimize } := by
  have hprofile : Preparation.target i.target host = .ok c.profile := h.target ▸ hc.target
  have hsources : Discovery.sources t i.inputs cwd = c.sources := h.inputs ▸ hc.sources.symm
  have hkind : Preparation.linkType t i.linkType c.sources = .ok c.policy.linkType := h.linkType ▸ hc.linkType
  have hreferences : Preparation.references t i.references i.stdlib tools = .ok c.references :=
    h.references ▸ h.stdlib ▸ hc.references
  rw [IlOptions.request, hprofile, hsources]
  by_cases hnone : c.sources = []
  · simp only [hnone]
    rfl
  · rw [if_neg hnone]
    simp only [hnone, if_false, hkind, hreferences, BuildContext.frontEndRequest, hc.defines, hc.langVersion,
      hc.debugInfo, hc.deterministic, h.defines, h.langVersion, h.deterministic, h.noDebugInfo]
    rfl

theorem shared_sameProgram (h : b.Shares i) (t : FileTree) (cwd : Path) (tools : Tools) (host : Host) :
    (∀ c r, b.prepare t cwd tools host = .ok c → i.request t cwd tools host = .ok r →
        ∀ output, (c.frontEndRequest output).SameProgram r) ∧
      ∀ e, i.request t cwd tools host = .error e →
        (∃ e', b.prepare t cwd tools host = .error e') ∨
          e = .noInputs cwd ∧ Discovery.sources t i.inputs cwd = [] := by
  constructor
  · intro c r hc hr output
    rw [(settled_of_prepare hc).request_eq h] at hr
    split at hr
    · cases hr
    · obtain rfl := Except.ok.inj hr
      constructor <;> rfl
  · intro e he
    cases hprepare : b.prepare t cwd tools host with
    | error e' => exact .inl ⟨e', rfl⟩
    | ok c =>
      have hc := settled_of_prepare hprepare
      rw [hc.request_eq h] at he
      split at he
      · next hnone =>
        refine .inr ⟨(Except.error.inj he).symm, ?_⟩
        rw [← h.inputs, ← hc.sources, hnone]
      · cases he

def project : FileTree :=
  let directories := ((FileTree.empty.set ["p"] .directory).set ["home"] .directory).set ["home", "ref"] .directory
  let source := Text.encodeUtf8 "class P { static void Main() { } }".toList
  (directories.set ["p", "Main.cs"] (.file source false)).set ["home", "ref", "System.Runtime.dll"] (.file [] false)

def small : BuildOptions where
  target := { os := some "uefi", arch := some "x64" }
  flags := { optimizeSize := true, deterministic := true }
  defines := ["DEBUG"]

def smallIl : IlOptions where
  output := some ⟨"/p/out.exe"⟩
  target := { os := some "uefi", arch := some "x64" }
  defines := ["DEBUG"]
  deterministic := true

theorem small_sameProgram : small.Shares smallIl ∧ ∃ c r, small.prepare project ⟨"/p"⟩ .bare {} = .ok c ∧
    smallIl.request project ⟨"/p"⟩ .bare {} = .ok r ∧ r.optimize = false ∧
      r.sources = [⟨"/p/Main.cs"⟩] ∧ r.references = [⟨"/home/ref/System.Runtime.dll"⟩] ∧
      (c.frontEndRequest ⟨"/w/Main.exe"⟩).optimize = true ∧ (c.frontEndRequest ⟨"/w/Main.exe"⟩).SameProgram r := by
  have hshares : small.Shares smallIl := by constructor <;> rfl
  have hbuild : (small.prepare project ⟨"/p"⟩ .bare {}).toOption.any (fun c => c.policy.optimization != .none) = true := by
    decide +kernel
  have hil : (smallIl.request project ⟨"/p"⟩ .bare {}).toOption.any (fun r => decide (r.optimize = false ∧
      r.sources = [⟨"/p/Main.cs"⟩] ∧ r.references = [⟨"/home/ref/System.Runtime.dll"⟩])) = true := by decide +kernel
  cases hc : small.prepare project ⟨"/p"⟩ .bare {} with
  | error e =>
    rw [hc] at hbuild
    cases hbuild
  | ok c =>
    cases hr : smallIl.request project ⟨"/p"⟩ .bare {} with
    | error e =>
      rw [hr] at hil
      cases hil
    | ok r =>
      rw [hc] at hbuild
      rw [hr] at hil
      obtain ⟨hoptimize, hsources, hreferences⟩ := of_decide_eq_true hil
      exact ⟨hshares, c, r, rfl, rfl, hoptimize, hsources, hreferences, hbuild,
        (shared_sameProgram hshares project ⟨"/p"⟩ .bare {}).1 c r hc hr ⟨"/w/Main.exe"⟩⟩

end BuildOptions

end NativeBuild
