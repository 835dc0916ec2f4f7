import NativeBuild.Program.Scan

namespace NativeBuild

namespace ScanResult

def refineBody (scan : ScanResult) (b : MethodBody) : MethodBody :=
  { b with
    directCalls := b.directCalls ++ b.virtualCalls.filterMap scan.devirtualized.get?
    virtualCalls := b.virtualCalls.filter (fun slot => !scan.devirtualized.contains slot) }

def questions (scan : ScanResult) (methods : List String) : List String :=
  methods.filter (fun m => !scan.importFailures.contains m)

end ScanResult

namespace ProgramGraph

def refinedBody (g : ProgramGraph) (scan : ScanResult) (method : String) : Except ImportFailure MethodBody :=
  match scan.importFailures.get? method with
  | some e => .error e
  | none => (g.body method).map scan.refineBody

theorem refinedBody_eq_ok {g : ProgramGraph} {scan : ScanResult} {m : String} {b : MethodBody}
    (h : g.refinedBody scan m = .ok b) : ∃ b', g.body m = .ok b' ∧ b = scan.refineBody b' := by
  unfold refinedBody at h
  split at h
  · simp at h
  · cases hb : g.body m with
    | error e => simp [hb, Except.map] at h
    | ok b' =>
      simp only [hb, Except.map, Except.ok.injEq] at h
      exact ⟨b', rfl, h.symm⟩

def refine (g : ProgramGraph) (scan : ScanResult) : ProgramGraph where
  roots := g.roots
  body := g.refinedBody scan
  implementations slot := (g.implementations slot).filter (fun i => decide (i.type ∈ scan.allocated))
  exports := g.exports
  names := g.names ++ scan.devirtualized.values
  root_mem := fun m h => List.mem_append_left _ (g.root_mem m h)
  call_mem := by
    intro m b h c hc
    obtain ⟨b', hb, rfl⟩ := refinedBody_eq_ok h
    rcases List.mem_append.1 hc with hc | hc
    · exact List.mem_append_left _ (g.call_mem m b' hb c hc)
    · obtain ⟨slot, _, hs⟩ := List.mem_filterMap.1 hc
      exact List.mem_append_right _ (OrderedMap.mem_values_of_get? hs)
  implementation_mem := fun slot i hi =>
    List.mem_append_left _ (g.implementation_mem slot i (List.mem_filter.1 hi).1)

end ProgramGraph

end NativeBuild
