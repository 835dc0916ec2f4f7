import NativeBuild.Proofs.Policy.FeatureTable

namespace NativeBuild.Policy

variable {flags : Flags} {target : Profile} {p : Policy}

structure Cultureless (p : Policy) : Prop where
  globalization : p.globalization = false
  switch : p.featureSwitches.get? "System.Globalization.Invariant" = some true
  command : ∀ r : CodegenRequest, r.policy = p →
    ¬ ("--invariantglobalization" ∈ r.args ∧ "--feature:System.Globalization.Invariant=false" ∈ r.args)

theorem globalization_resolve : (resolve flags target).globalization = false ↔ LacksCultures flags target := by
  rw [resolve]
  simp [LacksCultures, or_iff_not_imp_left]

theorem cultureless_iff (h : p.globalization = false) :
    Cultureless p ↔ p.featureSwitches.get? invariantSwitch = some true := by
  refine ⟨fun hp => hp.switch, fun hswitch => ⟨h, hswitch, ?_⟩⟩
  rintro r rfl ⟨-, hfalse⟩
  have hoff : r.policy.featureSwitches.get? invariantSwitch = some false :=
    CodegenRequest.switchArg_mem_args_iff.mp hfalse
  rw [hswitch] at hoff
  cases hoff

theorem impliedValue_of_lacksCultures (h : LacksCultures flags target) :
    impliedValue flags target invariantSwitch = some true := by
  rw [impliedValue, if_neg (fun hresource => absurd hresource.1 (by decide)), if_pos ⟨rfl, h⟩]

theorem get?_invariantSwitch_iff (h : LacksCultures flags target) :
    (resolve flags target).featureSwitches.get? invariantSwitch = some true ↔
      ¬ LastWritten flags.features invariantSwitch "false" := by
  constructor
  · intro htrue hfalse
    rw [get?_resolve_of_lastWritten hfalse] at htrue
    cases htrue
  · intro hnot
    obtain ⟨value, hlast⟩ | hnone := lastWritten_or_unwritten flags.features invariantSwitch
    · have hvalue : value ≠ "false" := fun heq => hnot (heq ▸ hlast)
      rw [get?_resolve_of_lastWritten hlast, bne_iff_ne.mpr hvalue]
    · rw [get?_resolve_of_unwritten hnone, impliedValue_of_lacksCultures h]

theorem resolve_cultureless_iff (h : LacksCultures flags target) :
    (resolve flags target).globalization = false ∧
      (Cultureless (resolve flags target) ↔ ¬ LastWritten flags.features "System.Globalization.Invariant" "false") := by
  have hglobalization : (resolve flags target).globalization = false := globalization_resolve.mpr h
  exact ⟨hglobalization, (cultureless_iff hglobalization).trans (get?_invariantSwitch_iff h)⟩

def localeless : Profile := ⟨.linux, .x64, .musl, []⟩

def restored : Flags where
  features := [
    "System.Globalization.Invariant=false", "System.Globalization.Invariant=", "System.Globalization.Invariant=on"]

theorem restored_resolve_cultureless_iff :
    LacksCultures restored localeless ∧ Cultureless (resolve restored localeless) := by
  have hlacks : LacksCultures restored localeless := .inr rfl
  have hlast : LastWritten restored.features invariantSwitch "on" :=
    ⟨["System.Globalization.Invariant=false", "System.Globalization.Invariant="], "System.Globalization.Invariant=on",
      [], rfl, ⟨by decide, by decide, by decide, by decide⟩, List.forall_mem_nil _⟩
  have hswitch : (resolve restored localeless).featureSwitches.get? invariantSwitch = some true :=
    get?_resolve_of_lastWritten hlast
  refine ⟨hlacks, (resolve_cultureless_iff hlacks).2.mpr fun hlast' => ?_⟩
  have hoff : (resolve restored localeless).featureSwitches.get? invariantSwitch = some false :=
    get?_resolve_of_lastWritten hlast'
  rw [hswitch] at hoff
  cases hoff

def overridden : Flags where
  features := ["System.Globalization.Invariant=false"]

theorem overridden_not_cultureless :
    LacksCultures overridden localeless ∧ ¬ Cultureless (resolve overridden localeless) ∧
      ∀ r : CodegenRequest, r.policy = resolve overridden localeless →
        "--invariantglobalization" ∈ r.args ∧ "--feature:System.Globalization.Invariant=false" ∈ r.args := by
  have hlacks : LacksCultures overridden localeless := .inr rfl
  have hlast : LastWritten overridden.features invariantSwitch "false" :=
    ⟨[], "System.Globalization.Invariant=false", [], rfl, ⟨by decide, by decide, by decide, by decide⟩,
      List.forall_mem_nil _⟩
  have hswitch : (resolve overridden localeless).featureSwitches.get? invariantSwitch = some false :=
    get?_resolve_of_lastWritten hlast
  refine ⟨hlacks, fun h => ?_, fun r hr => ⟨?_, ?_⟩⟩
  · have htrue : (resolve overridden localeless).featureSwitches.get? invariantSwitch = some true := h.switch
    rw [hswitch] at htrue
    cases htrue
  · exact CodegenRequest.invariantArg_mem_args_iff.mpr (hr ▸ globalization_resolve.mpr hlacks)
  · exact CodegenRequest.switchArg_mem_args_iff.mpr (hr ▸ hswitch)

end NativeBuild.Policy
