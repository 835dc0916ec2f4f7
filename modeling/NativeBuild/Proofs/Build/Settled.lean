import NativeBuild.Build.Preparation

namespace NativeBuild

theorem bind_eq_ok_iff {ε α β : Type} {x : Except ε α} {f : α → Except ε β} {r : β} :
    x >>= f = .ok r ↔ ∃ a, x = .ok a ∧ f a = .ok r := by
  cases x with
  | error e => exact ⟨nofun, fun ⟨_, h, _⟩ => nomatch h⟩
  | ok a => exact ⟨fun h => ⟨a, rfl, h⟩, fun ⟨_, ha, h⟩ => Except.ok.inj ha ▸ h⟩

namespace BuildOptions

variable {b : BuildOptions} {t : FileTree} {cwd : Path} {tools : Tools} {host : Host}
  {c : BuildContext}

structure Settled (b : BuildOptions) (t : FileTree) (cwd : Path) (tools : Tools) (host : Host) (c : BuildContext) :
    Prop where
  target : Preparation.target b.target host = .ok c.profile
  sources : c.sources = Discovery.sources t b.inputs cwd
  linkType : Preparation.linkType t b.linkType c.sources = .ok c.policy.linkType
  references : Preparation.references t b.references b.flags.stdlib tools = .ok c.references
  debugInfo : c.policy.debugInfo = !b.flags.noDebugInfo
  deterministic : c.policy.deterministic = b.flags.deterministic
  defines : c.defines = b.defines
  langVersion : c.langVersion = b.langVersion
  paths : c.paths = BuildPaths.ofOutput c.paths.output c.profile c.policy.linkType b.map b.analyseSize

theorem settled_of_prepare (h : b.prepare t cwd tools host = .ok c) : b.Settled t cwd tools host c := by
  rw [prepare] at h
  obtain ⟨profile, hprofile, h⟩ := bind_eq_ok_iff.mp h
  obtain ⟨kind, hkind, h⟩ := bind_eq_ok_iff.mp h
  obtain ⟨libDirs, -, h⟩ := bind_eq_ok_iff.mp h
  obtain ⟨references, hreferences, h⟩ := bind_eq_ok_iff.mp h
  obtain ⟨runtimeReferences, -, h⟩ := bind_eq_ok_iff.mp h
  obtain rfl := Except.ok.inj h
  constructor
  case target => exact hprofile
  case linkType => exact hkind
  case references => exact hreferences
  all_goals rfl

end BuildOptions

end NativeBuild
