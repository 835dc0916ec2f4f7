import Mathlib.Data.List.Perm.Subperm
import NativeBuild.Proofs.Program.Facts
import NativeBuild.Proofs.Program.Walk

namespace NativeBuild

theorem OrderedSet.size_le_of_subset {s t : OrderedSet String} (h : ∀ x ∈ s, x ∈ t) : s.size ≤ t.size :=
  (List.subperm_of_subset s.nodup_toList h).length_le

namespace ProgramGraph

variable {g : ProgramGraph}

theorem importAll_eq_ok_iff {ms : List String} :
    g.importAll ms = .ok () ↔ ∀ m ∈ ms, ∃ b, g.body m = .ok b := by
  induction ms with
  | nil => simp [importAll]
  | cons m ms ih =>
    rw [importAll, importMethod, List.forall_mem_cons]
    cases hb : g.body m with
    | ok b => simpa using ih
    | error e => simp

theorem refine_body (m : String) :
    (g.refine g.scan).body m = (g.body m).map g.scan.refineBody := by
  change g.refinedBody g.scan m = _
  rw [refinedBody]
  cases he : g.scan.importFailures.get? m with
  | none => rfl
  | some e => rw [(importFailures_eq_some_iff.mp he).2]; rfl

theorem mem_callees_refineBody {b : MethodBody} {c : String} :
    c ∈ (g.refine g.scan).callees (g.scan.refineBody b) ↔
      c ∈ b.directCalls ∨ ∃ slot ∈ b.virtualCalls, c ∈ g.targets g.scan.allocated slot := by
  change c ∈ (b.directCalls ++ b.virtualCalls.filterMap g.scan.devirtualized.get?) ++
    (b.virtualCalls.filter (fun slot => !g.scan.devirtualized.contains slot)).flatMap
      (g.targets g.scan.allocated) ↔ _
  rw [List.mem_append, List.mem_append, or_assoc]
  apply or_congr_right
  rw [List.mem_filterMap, List.mem_flatMap]
  constructor
  · rintro (⟨slot, hs, hd⟩ | ⟨slot, hs, hc⟩)
    · exact ⟨slot, hs, ((devirtualized_eq_some_iff.mp hd).2 c).mpr rfl⟩
    · exact ⟨slot, (List.mem_filter.mp hs).1, hc⟩
  · rintro ⟨slot, hs, hc⟩
    cases hd : g.scan.devirtualized.get? slot with
    | none =>
      right
      refine ⟨slot, List.mem_filter.mpr ⟨hs, ?_⟩, hc⟩
      simp [OrderedMap.contains, hd]
    | some target =>
      left
      rw [((devirtualized_eq_some_iff.mp hd).2 c).mp hc]
      exact ⟨slot, hs, hd⟩

theorem walked_refine_subset {m : String} (h : (g.refine g.scan).Walked m) : m ∈ g.scan.reachable := by
  have hc := g.scan_closed
  induction h with
  | root hm => exact hc.root _ hm
  | call hm hb hcall ih =>
    obtain ⟨b, hb', rfl⟩ := refinedBody_eq_ok hb
    rcases mem_callees_refineBody.mp hcall with hcall | ⟨slot, hs, hcall⟩
    · exact hc.call (mem_listed ih hb' hcall)
    · obtain ⟨i, hi, ht, rfl⟩ := mem_targets.mp hcall
      exact hc.behind slot (hc.slot (mem_listed ih hb' hs)) i hi ht

theorem walked_refine_closed :
    g.Closed {m | (g.refine g.scan).Walked m} {t | t ∈ g.scan.allocated}
      (g.listed {m | (g.refine g.scan).Walked m} (·.virtualCalls)) := by
  have hcall : ∀ m b c, (g.refine g.scan).Walked m → g.body m = .ok b →
      (c ∈ b.directCalls ∨ ∃ slot ∈ b.virtualCalls, c ∈ g.targets g.scan.allocated slot) →
      (g.refine g.scan).Walked c := by
    intro m b c hm hb hc
    have hb' : (g.refine g.scan).body m = .ok (g.scan.refineBody b) := by rw [refine_body, hb]; rfl
    exact .call hm hb' (mem_callees_refineBody.mpr hc)
  constructor
  · exact fun m hm => .root hm
  · rintro c ⟨m, hm, b, hb, hc⟩
    exact hcall m b c hm hb (Or.inl hc)
  -- no walk looks at types, so this is where the other inclusion is needed first
  · exact (listed_mono (fun m hm => walked_refine_subset hm) _).trans g.scan_closed.allocation
  · exact subset_rfl
  · rintro slot ⟨m, hm, b, hb, hs⟩ i hi ht
    exact hcall m b i.method hm hb (Or.inr ⟨slot, hs, mem_targets.mpr ⟨i, hi, ht, rfl⟩⟩)

theorem walked_refine_iff {m : String} : (g.refine g.scan).Walked m ↔ m ∈ g.scan.reachable :=
  ⟨walked_refine_subset, fun hm => (g.scan_least walked_refine_closed).1 hm⟩

theorem refine_importable_iff {m : String} :
    (∃ b, (g.refine g.scan).body m = .ok b) ↔ ∃ b, g.body m = .ok b := by
  rw [refine_body]
  cases g.body m <;> simp [Except.map]

theorem visited_refine_eq_ok_iff {v : OrderedSet String} :
    (g.refine g.scan).visited = .ok v ↔ v = g.scan.reachable ∧ g.scan.importFailures = ∅ := by
  rw [visited_eq_ok_iff, importFailures_eq_empty_iff]
  simp only [walked_refine_iff, refine_importable_iff]
  apply and_congr_left'
  constructor
  · exact fun h => OrderedSet.ext h
  · rintro rfl m
    exact Iff.rfl

theorem refined_walk_reachable (g : ProgramGraph) :
    ((g.refine g.scan).visited = .ok g.scan.reachable ↔ g.scan.importFailures = ∅) ∧
      ((g.refine g.scan).importReachable none = .ok g.scan.reachable.size ↔ g.scan.importFailures = ∅) ∧
      ((∃ m e, (g.refine g.scan).importReachable none = .error (.importing m e)) ↔
        g.scan.importFailures ≠ ∅) := by
  refine ⟨?_, ?_, ?_⟩
  · rw [visited_refine_eq_ok_iff]
    exact and_iff_right rfl
  · rw [importReachable_none_eq_ok_iff]
    constructor
    · rintro ⟨v, hv, -⟩
      exact (visited_refine_eq_ok_iff.mp hv).2
    · intro h
      exact ⟨g.scan.reachable, visited_refine_eq_ok_iff.mpr ⟨rfl, h⟩, rfl⟩
  · simp only [importReachable_none_eq_error_iff]
    rw [visited_eq_importing_iff, not_iff_not]
    simp only [visited_refine_eq_ok_iff, exists_eq_left]

theorem scan_within_walk {n : Nat} (h : g.importReachable none = .ok n) :
    g.scan.importFailures = ∅ ∧
      (∃ v, g.visited = .ok v ∧ v.size = n ∧ ∀ m ∈ g.scan.reachable, m ∈ v) ∧
      (g.refine g.scan).importReachable (some g.scan) = .ok g.scan.reachable.size ∧
      g.scan.reachable.size ≤ n := by
  obtain ⟨v, hv, hn⟩ := importReachable_none_eq_ok_iff.mp h
  obtain ⟨hmem, hok⟩ := visited_eq_ok_iff.mp hv
  have hsub : ∀ m ∈ g.scan.reachable, m ∈ v := fun m hm => (hmem m).mpr ((g.scan_least walked_closed).1 hm)
  have hbody : ∀ m ∈ g.scan.reachable, ∃ b, g.body m = .ok b := fun m hm => hok m ((hmem m).mp (hsub m hm))
  refine ⟨importFailures_eq_empty_iff.mpr hbody, ⟨v, hv, hn, hsub⟩, ?_, ?_⟩
  · have hall : (g.refine g.scan).importAll g.scan.reachable.toList = .ok () :=
      importAll_eq_ok_iff.mpr (fun m hm => refine_importable_iff.mpr (hbody m hm))
    rw [importReachable, hall]
    rfl
  · rw [← hn]
    exact OrderedSet.size_le_of_subset hsub

theorem gallery_scan_within_walk :
    let g := ProgramDocument.gallery.graph
    g.importReachable none = .ok 4 ∧ g.scan.importFailures = ∅ ∧
      (∃ v, g.visited = .ok v ∧ v.size = 4 ∧ ∀ m ∈ g.scan.reachable, m ∈ v) ∧
      (g.refine g.scan).importReachable (some g.scan) = .ok g.scan.reachable.size ∧
      g.scan.reachable.size ≤ 4 := by
  intro g
  have h : g.importReachable none = .ok 4 := rfl
  exact ⟨h, scan_within_walk h⟩

end ProgramGraph

end NativeBuild
