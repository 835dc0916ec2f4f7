import NativeBuild.Proofs.Codegen.Switches

namespace NativeBuild.Policy

open OrderedMap (seek seek_append mem_of_seek_eq_some)

theorem seek_reverse {es : List (String × Bool)} (h : es.Pairwise (fun e e' => e.1 ≠ e'.1)) (k : String) :
    seek k es.reverse = seek k es := by
  induction es with
  | nil => rfl
  | cons e es ih =>
    obtain ⟨hfirst, hrest⟩ := List.pairwise_cons.mp h
    rw [List.reverse_cons, seek_append, ih hrest]
    by_cases he : e.1 = k
    · have hnone : seek k es = none := by
        rw [Option.eq_none_iff_forall_ne_some]
        exact fun v hv => hfirst _ (mem_of_seek_eq_some hv) he
      simp [hnone, seek, he]
    · cases hfound : seek k es <;> simp [seek, he, hfound]

variable {flags : Flags} {target : Profile} {entry name value : String} {b : Bool} {entries : List String}

structure Writes (entry name value : String) : Prop where
  text : entry = name ++ "=" ++ value
  first : '=' ∉ name.toList
  named : name ≠ ""
  valued : value ≠ ""

def LastWritten (entries : List String) (name value : String) : Prop :=
  ∃ before entry after, entries = before ++ entry :: after ∧ Writes entry name value ∧
    ∀ later ∈ after, ∀ value', ¬ Writes later name value'

def Unwritten (entries : List String) (name : String) : Prop := ∀ entry ∈ entries, ∀ value, ¬ Writes entry name value

def LacksCultures (flags : Flags) (target : Profile) : Prop :=
  flags.noGlobalization = true ∨ target.libc.lacksLocale = true

instance : Decidable (LacksCultures flags target) := inferInstanceAs (Decidable (_ ∨ _))

def resourceSwitch : String := "System.Resources.UseSystemResourceKeys"

def invariantSwitch : String := "System.Globalization.Invariant"

def stackTraceSwitch : String := "System.Diagnostics.StackTrace.IsSupported"

/-- What a switch comes to where no entry is written for it. -/
def impliedValue (flags : Flags) (target : Profile) (name : String) : Option Bool :=
  if name = resourceSwitch ∧ (flags.noExceptionMessages = true ∨ flags.noReflection = true) then some true
  else if name = invariantSwitch ∧ LacksCultures flags target then some true
  else if name = stackTraceSwitch ∧ (flags.noStackTraceData = true ∨ flags.stdlib ≠ .dotnet) then some false
  else seek name defaultSwitches

theorem parseSwitch_eq_some_iff : parseSwitch entry = some (name, b) ↔
    ∃ value, Writes entry name value ∧ b = (value != "false") := by
  constructor
  · intro h
    rw [parseSwitch] at h
    split at h
    · next a c hcut =>
      obtain ⟨htext, hfirst⟩ := Text.cutFirst_eq_some_iff.mp hcut
      split at h
      · cases h
      · next hne =>
        rw [Bool.or_eq_true, decide_eq_true_eq, decide_eq_true_eq, not_or] at hne
        rw [Option.some.injEq, Prod.mk.injEq] at h
        obtain ⟨rfl, rfl⟩ := h
        refine ⟨String.ofList c, ⟨?_, by simpa using hfirst, by simpa using hne.1, by simpa using hne.2⟩, rfl⟩
        rw [← String.toList_inj, htext]
        simp
    · cases h
  · rintro ⟨value, ⟨rfl, hfirst, hname, hvalue⟩, rfl⟩
    have hcut : Text.cutFirst '=' (name ++ "=" ++ value).toList = some (name.toList, value.toList) :=
      Text.cutFirst_eq_some_iff.mpr ⟨by simp, hfirst⟩
    rw [parseSwitch, hcut]
    simp [hname, hvalue]

theorem parseSwitch_eq_none_iff : parseSwitch entry = none ↔ ∀ name value, ¬ Writes entry name value := by
  rw [Option.eq_none_iff_forall_ne_some]
  constructor
  · exact fun h name value hwrites => h _ (parseSwitch_eq_some_iff.mpr ⟨value, hwrites, rfl⟩)
  · rintro h ⟨name, b⟩ hparse
    obtain ⟨value, hwrites, -⟩ := parseSwitch_eq_some_iff.mp hparse
    exact h name value hwrites

theorem seek_requested_of_unwritten (h : Unwritten entries name) :
    seek name (entries.filterMap parseSwitch).reverse = none := by
  rw [Option.eq_none_iff_forall_ne_some]
  intro b hb
  have hmem : (name, b) ∈ entries.filterMap parseSwitch := List.mem_reverse.mp (mem_of_seek_eq_some hb)
  obtain ⟨entry, hentry, hparse⟩ := List.mem_filterMap.mp hmem
  obtain ⟨value, hwrites, -⟩ := parseSwitch_eq_some_iff.mp hparse
  exact h entry hentry value hwrites

theorem seek_requested_of_lastWritten (h : LastWritten entries name value) :
    seek name (entries.filterMap parseSwitch).reverse = some (value != "false") := by
  obtain ⟨before, entry, after, rfl, hwrites, hlast⟩ := h
  have hparse : parseSwitch entry = some (name, value != "false") := parseSwitch_eq_some_iff.mpr ⟨value, hwrites, rfl⟩
  have hafter : seek name (after.filterMap parseSwitch).reverse = none := seek_requested_of_unwritten hlast
  rw [List.filterMap_append, List.filterMap_cons_some hparse, List.reverse_append, List.reverse_cons, seek_append,
    seek_append, hafter, Option.none_or, seek, if_pos rfl, Option.some_or]

theorem lastWritten_or_unwritten (entries : List String) (name : String) :
    (∃ value, LastWritten entries name value) ∨ Unwritten entries name := by
  induction entries with
  | nil => exact .inr (List.forall_mem_nil _)
  | cons entry entries ih =>
    obtain ⟨value, before, last, after, rfl, hlast⟩ | hnone := ih
    · exact .inl ⟨value, entry :: before, last, after, rfl, hlast⟩
    · by_cases hwrites : ∃ value, Writes entry name value
      · obtain ⟨value, hwrites⟩ := hwrites
        exact .inl ⟨value, [], entry, entries, rfl, hwrites, hnone⟩
      · exact .inr (List.forall_mem_cons.mpr ⟨not_exists.mp hwrites, hnone⟩)

theorem seek_ite {c : Prop} [Decidable c] {k : String} :
    seek name (if c then [(k, b)] else []) = if name = k ∧ c then some b else none := by
  by_cases hc : c <;> simp [hc, seek, eq_comm]

theorem seek_ite_not {c : Prop} [Decidable c] {k : String} :
    seek name (if c then [] else [(k, b)]) = if name = k ∧ ¬ c then some b else none := by
  by_cases hc : c <;> simp [hc, seek, eq_comm]

theorem impliedSwitches_distinct (flags : Flags) (globalization stackTraceData : Bool) :
    (impliedSwitches flags globalization stackTraceData).Pairwise (fun e e' => e.1 ≠ e'.1) := by
  rw [impliedSwitches]
  split <;> split <;> split <;> decide

theorem featureSwitches_resolve (flags : Flags) (target : Profile) : (resolve flags target).featureSwitches =
    featureTable flags (!flags.noGlobalization && !target.libc.lacksLocale)
      (!flags.noStackTraceData && flags.stdlib == .dotnet) := by rw [resolve]

theorem get?_featureTable (flags : Flags) (globalization stackTraceData : Bool) (name : String) :
    (featureTable flags globalization stackTraceData).get? name =
      (seek name (flags.features.filterMap parseSwitch).reverse).or
        ((seek name (impliedSwitches flags globalization stackTraceData).reverse).or
          (seek name defaultSwitches.reverse)) := by
  rw [featureTable, OrderedMap.get?_ofList, List.reverse_append, List.reverse_append, seek_append, seek_append]

theorem get?_resolve_of_lastWritten (h : LastWritten flags.features name value) :
    (resolve flags target).featureSwitches.get? name = some (value != "false") := by
  rw [featureSwitches_resolve, get?_featureTable, seek_requested_of_lastWritten h, Option.some_or]

theorem get?_resolve_of_unwritten (h : Unwritten flags.features name) :
    (resolve flags target).featureSwitches.get? name = impliedValue flags target name := by
  have hdefaults : defaultSwitches.Pairwise (fun e e' => e.1 ≠ e'.1) := by decide +kernel
  have hcultures : ¬ (!flags.noGlobalization && !target.libc.lacksLocale) = true ↔ LacksCultures flags target := by
    simp [LacksCultures, or_iff_not_imp_left]
  have hstackTraces : ¬ (!flags.noStackTraceData && flags.stdlib == .dotnet) = true ↔
      flags.noStackTraceData = true ∨ flags.stdlib ≠ .dotnet := by
    simp [or_iff_not_imp_left]
  have hor {c : Prop} [Decidable c] {v : Bool} {o : Option Bool} :
      (if c then some v else none).or o = if c then some v else o := by split <;> rfl
  rw [featureSwitches_resolve, get?_featureTable, seek_requested_of_unwritten h, Option.none_or,
    seek_reverse (impliedSwitches_distinct ..), seek_reverse hdefaults, impliedSwitches, seek_append, seek_append,
    seek_ite, seek_ite_not, seek_ite_not, impliedValue, Option.or_assoc, Option.or_assoc, hor, hor, hor]
  refine if_congr (and_congr_right' (Bool.or_eq_true_iff ..)) rfl ?_
  exact if_congr (and_congr_right' hcultures) rfl (if_congr (and_congr_right' hstackTraces) rfl rfl)

structure Switches (flags : Flags) (target : Profile) (p : Policy) : Prop where
  written : ∀ name value, LastWritten flags.features name value →
    p.featureSwitches.get? name = some (value != "false")
  unwritten : ∀ name, Unwritten flags.features name → p.featureSwitches.get? name = impliedValue flags target name
  ignored : ∀ before entry after, flags.features = before ++ entry :: after →
    (∀ name value, ¬ Writes entry name value) → resolve { flags with features := before ++ after } target = p
  rendered : ∀ r : CodegenRequest, r.policy = p → CodegenRequest.Renders r.args p.featureSwitches

theorem resolve_switches (flags : Flags) (target : Profile) : Switches flags target (resolve flags target) := by
  constructor
  case written => exact fun name value => get?_resolve_of_lastWritten
  case unwritten => exact fun name => get?_resolve_of_unwritten
  case ignored =>
    intro before entry after hfeatures hmalformed
    have hrequested : (before ++ after).filterMap parseSwitch = flags.features.filterMap parseSwitch := by
      rw [hfeatures, List.filterMap_append, List.filterMap_append,
        List.filterMap_cons_none (parseSwitch_eq_none_iff.mpr hmalformed)]
    simp only [resolve, featureTable, impliedSwitches, selectOptimization, hrequested]
  case rendered => exact fun r hr => hr ▸ CodegenRequest.args_renders r

end NativeBuild.Policy
