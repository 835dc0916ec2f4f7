import NativeBuild.Proofs.Program.Scan

namespace NativeBuild

namespace ScanState

variable {g : ProgramGraph} {s : ScanState}

theorem devirtualize_eq_some_iff {slot : String} {e : String × String} :
    s.devirtualize g slot = some e ↔ e.1 = slot ∧ ∀ m, m ∈ g.targets s.allocated slot ↔ m = e.2 := by
  obtain ⟨x, target⟩ := e
  have hset : (OrderedSet.ofList (g.targets s.allocated slot)).toList = [target] ↔
      ∀ m, m ∈ g.targets s.allocated slot ↔ m = target := by
    rw [OrderedSet.toList_eq_singleton_iff]
    simp only [OrderedSet.mem_ofList]
  rw [← hset, devirtualize]
  split
  · next target' h => simp [h, eq_comm]
  · next h =>
    constructor
    · intro hn
      exact absurd hn (by simp)
    · rintro ⟨-, hs⟩
      exact absurd hs (h target)

theorem result_devirtualized_iff {slot target : String} :
    (s.result g).devirtualized.get? slot = some target ↔
      slot ∈ s.calledSlots ∧ ∀ m, m ∈ g.targets s.allocated slot ↔ m = target := by
  have hmem : ∀ e : String × String, e ∈ s.calledSlots.toList.filterMap (s.devirtualize g) ↔
      e.1 ∈ s.calledSlots ∧ ∀ m, m ∈ g.targets s.allocated e.1 ↔ m = e.2 := by
    intro e
    simp only [List.mem_filterMap, devirtualize_eq_some_iff, OrderedSet.mem_toList]
    constructor
    · rintro ⟨x, hx, rfl, h⟩
      exact ⟨hx, h⟩
    · rintro ⟨hx, h⟩
      exact ⟨e.1, hx, rfl, h⟩
  rw [result, OrderedMap.get?_ofList_eq_some_iff, hmem]
  intro e he e' he' hk
  have h := ((hmem e).mp he).2 e.2
  rw [hk] at h
  exact (((hmem e').mp he').2 e.2).mp (h.mpr rfl)

end ScanState

namespace ProgramGraph

variable {g : ProgramGraph}

theorem devirtualized_eq_some_iff {slot target : String} :
    g.scan.devirtualized.get? slot = some target ↔
      slot ∈ g.calledSlots ∧ ∀ m, m ∈ g.targets g.scan.allocated slot ↔ m = target :=
  ScanState.result_devirtualized_iff

theorem importFailures_eq_some_iff {m : String} {e : ImportFailure} :
    g.scan.importFailures.get? m = some e ↔ m ∈ g.scan.reachable ∧ g.body m = .error e :=
  g.scan_gathered.failure_iff m e

theorem importFailures_eq_empty_iff :
    g.scan.importFailures = ∅ ↔ ∀ m ∈ g.scan.reachable, ∃ b, g.body m = .ok b := by
  constructor
  · intro h m hm
    cases hb : g.body m with
    | ok b => exact ⟨b, rfl⟩
    | error e =>
      have he := importFailures_eq_some_iff.mpr ⟨hm, hb⟩
      rw [h] at he
      simp at he
  · intro h
    apply OrderedMap.ext
    intro m
    cases he : g.scan.importFailures.get? m with
    | none => rfl
    | some e =>
      obtain ⟨hm, hb⟩ := importFailures_eq_some_iff.mp he
      obtain ⟨b, hb'⟩ := h m hm
      rw [hb] at hb'
      simp at hb'

end ProgramGraph

end NativeBuild
