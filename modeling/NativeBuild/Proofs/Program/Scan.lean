import NativeBuild.Program.Document
import NativeBuild.Proofs.Program.Record

namespace NativeBuild

namespace ScanState

variable {g : ProgramGraph} {s : ScanState}

theorem mem_found {m : String} :
    m ∈ s.found g ↔ m ∈ s.discovered ∨
      ∃ slot ∈ s.calledSlots, ∃ i ∈ g.implementations slot, i.type ∈ s.allocated ∧ i.method = m := by
  rw [found, OrderedSet.mem_insertAll, or_comm]
  simp only [List.mem_flatMap, ProgramGraph.mem_targets, OrderedSet.mem_toList]

theorem mem_nextWave {m : String} : m ∈ s.nextWave g ↔ m ∈ s.found g ∧ ¬ m ∈ s.reachable :=
  OrderedSet.mem_diff

def known (s : ScanState) : Set String := {m | m ∈ s.reachable ∨ m ∈ s.discovered}

structure Settled (g : ProgramGraph) (s : ScanState) : Prop where
  gathered : s.Gathered g {m | m ∈ s.reachable}
  root : ∀ m ∈ g.roots, m ∈ s.known
  call : g.listed {m | m ∈ s.reachable} (·.directCalls) ⊆ s.known
  least : ∀ M T S, g.Closed M T S → s.known ⊆ M

theorem settled_start (g : ProgramGraph) : Settled g (ScanRun.start g) where
  gathered := by
    convert gathered_start g using 1
    ext m
    simp [ScanRun.start]
  root := by
    intro m hm
    exact Or.inr (OrderedSet.mem_ofList.mpr hm)
  call := by
    rintro x ⟨m, hm, -⟩
    exact absurd hm (OrderedSet.not_mem_empty m)
  least := by
    rintro M T S hM m (hm | hm)
    · exact absurd hm (OrderedSet.not_mem_empty m)
    · exact hM.root m (OrderedSet.mem_ofList.mp hm)

theorem Settled.reachable_subset (h : Settled g s) {M T S : Set String} (hM : g.Closed M T S) :
    {m | m ∈ s.reachable} ⊆ M := fun _ hm => h.least M T S hM (Or.inl hm)

theorem Settled.allocated_subset (h : Settled g s) {M T S : Set String} (hM : g.Closed M T S) :
    {t | t ∈ s.allocated} ⊆ T := by
  intro t ht
  apply hM.allocation
  exact ProgramGraph.listed_mono (h.reachable_subset hM) _ ((h.gathered.type_iff t).mp ht)

theorem Settled.calledSlots_subset (h : Settled g s) {M T S : Set String} (hM : g.Closed M T S) :
    {x | x ∈ s.calledSlots} ⊆ S := by
  intro x hx
  apply hM.slot
  exact ProgramGraph.listed_mono (h.reachable_subset hM) _ ((h.gathered.slot_iff x).mp hx)

theorem Settled.found_subset (h : Settled g s) {M T S : Set String} (hM : g.Closed M T S) :
    {m | m ∈ s.found g} ⊆ M := by
  intro m hm
  rcases mem_found.mp hm with hm | ⟨slot, hslot, i, hi, ht, rfl⟩
  · exact h.least M T S hM (Or.inr hm)
  · exact hM.behind slot (h.calledSlots_subset hM hslot) i hi (h.allocated_subset hM ht)

theorem Settled.nextWave_subset (h : Settled g s) {M T S : Set String} (hM : g.Closed M T S) :
    {m | m ∈ s.nextWave g} ⊆ M := fun _ hm => h.found_subset hM (mem_nextWave.mp hm).1

theorem known_subset_importWave : s.known ⊆ {m | m ∈ (s.importWave g (s.nextWave g)).reachable} := by
  intro m hm
  apply mem_importWave_reachable.mpr
  by_cases hr : m ∈ s.reachable
  · exact Or.inl hr
  · exact Or.inr (mem_nextWave.mpr ⟨mem_found.mpr (Or.inl (hm.resolve_left hr)), hr⟩)

theorem Settled.importWave (h : Settled g s) : Settled g (s.importWave g (s.nextWave g)) := by
  have hset : {m | m ∈ (s.importWave g (s.nextWave g)).reachable} =
      {m | m ∈ s.reachable} ∪ {m | m ∈ s.nextWave g} := by
    ext m
    exact mem_importWave_reachable
  constructor
  case gathered =>
    rw [hset]
    exact (h.gathered.enter _).recordAll _
  case root =>
    intro m hm
    exact Or.inl (known_subset_importWave (h.root m hm))
  case call =>
    rw [hset]
    rintro c ⟨m, hm | hm, b, hb, hc⟩
    · exact Or.inl (known_subset_importWave (h.call (ProgramGraph.mem_listed hm hb hc)))
    · exact Or.inr (mem_importWave_discovered.mpr (ProgramGraph.mem_listed hm hb hc))
  case least =>
    -- the wave lies in `M` by what was known before it, and what its methods call by closedness
    rintro M T S hM m (hm | hm)
    · rcases mem_importWave_reachable.mp hm with hm | hm
      · exact h.reachable_subset hM hm
      · exact h.nextWave_subset hM hm
    · exact hM.call (ProgramGraph.listed_mono (h.nextWave_subset hM) _ (mem_importWave_discovered.mp hm))

theorem Settled.closed (h : Settled g s) (hw : s.nextWave g = []) :
    g.Closed {m | m ∈ s.reachable} {t | t ∈ s.allocated} {x | x ∈ s.calledSlots} := by
  have hfound : ∀ m ∈ s.found g, m ∈ s.reachable := by
    intro m hm
    by_contra hn
    have hm' : m ∈ s.nextWave g := mem_nextWave.mpr ⟨hm, hn⟩
    rw [hw] at hm'
    exact List.not_mem_nil hm'
  have hknown : s.known ⊆ {m | m ∈ s.reachable} := by
    rintro m (hm | hm)
    · exact hm
    · exact hfound m (mem_found.mpr (Or.inl hm))
  constructor
  · exact fun m hm => hknown (h.root m hm)
  · exact h.call.trans hknown
  · exact fun t ht => (h.gathered.type_iff t).mpr ht
  · exact fun x hx => (h.gathered.slot_iff x).mpr hx
  · exact fun x hx i hi ht => hfound _ (mem_found.mpr (Or.inr ⟨x, hx, i, hi, ht, rfl⟩))

theorem Settled.outside_lt (h : Settled g s) (hw : s.nextWave g ≠ []) :
    (g.outside (s.importWave g (s.nextWave g)).reachable).card < (g.outside s.reachable).card := by
  obtain ⟨m, hm⟩ := List.exists_mem_of_ne_nil _ hw
  apply ProgramGraph.outside_card_lt
  · exact fun x hx => mem_importWave_reachable.mpr (Or.inl hx)
  · exact h.nextWave_subset ProgramGraph.names_closed hm
  · exact (mem_nextWave.mp hm).2
  · exact mem_importWave_reachable.mpr (Or.inr hm)

theorem upTo_final {n : Nat} (h : Settled g s) (hn : (g.outside s.reachable).card < n) :
    ∃ t, Settled g t ∧ t.nextWave g = [] ∧ (ScanRun.upTo g n s).final = t.enter [] := by
  induction n generalizing s with
  | zero => omega
  | succ n ih =>
    rw [ScanRun.upTo]
    by_cases hw : s.nextWave g = []
    · exact ⟨s, h, hw, by simp [hw]⟩
    · have hlt := h.outside_lt hw
      obtain ⟨t, ht, htw, htf⟩ := ih h.importWave (by omega)
      exact ⟨t, ht, htw, by simp [hw, htf]⟩

end ScanState

namespace ProgramGraph

variable (g : ProgramGraph)

def calledSlots : OrderedSet String := (ScanRun.of g).final.calledSlots

theorem scan_final : ∃ t : ScanState, t.Settled g ∧ t.nextWave g = [] ∧ (ScanRun.of g).final = t.enter [] := by
  apply ScanState.upTo_final (ScanState.settled_start g)
  have := outside_card_le (g := g) (ScanRun.start g).reachable
  omega

theorem scan_gathered : (ScanRun.of g).final.Gathered g {m | m ∈ g.scan.reachable} := by
  obtain ⟨t, ht, -, hf⟩ := g.scan_final
  unfold scan
  rw [hf]
  exact ht.gathered.enter []

theorem scan_closed :
    g.Closed {m | m ∈ g.scan.reachable} {t | t ∈ g.scan.allocated} {s | s ∈ g.calledSlots} := by
  obtain ⟨t, ht, hw, hf⟩ := g.scan_final
  -- the empty wave takes away nothing but what was discovered
  unfold scan calledSlots
  rw [hf]
  exact ht.closed hw

theorem scan_least {M T S : Set String} (h : g.Closed M T S) :
    {m | m ∈ g.scan.reachable} ⊆ M ∧ {t | t ∈ g.scan.allocated} ⊆ T ∧ {s | s ∈ g.calledSlots} ⊆ S := by
  obtain ⟨t, ht, -, hf⟩ := g.scan_final
  unfold scan calledSlots
  rw [hf]
  exact ⟨ht.reachable_subset h, ht.allocated_subset h, ht.calledSlots_subset h⟩

theorem scan_least_closed :
    g.Closed {m | m ∈ g.scan.reachable} {t | t ∈ g.scan.allocated} {s | s ∈ g.calledSlots} ∧
      ∀ M T S, g.Closed M T S → {m | m ∈ g.scan.reachable} ⊆ M ∧ {t | t ∈ g.scan.allocated} ⊆ T ∧
        {s | s ∈ g.calledSlots} ⊆ S :=
  ⟨g.scan_closed, fun _ _ _ h => g.scan_least h⟩

end ProgramGraph

def ProgramDocument.gallery : ProgramDocument where
  roots := ["main"]
  methods := OrderedMap.ofList [
    ("main", { directCalls := ["draw"], virtualCalls := ["area"] }),
    ("draw", { directCalls := ["main"], allocatedTypes := ["circle"], typeChecks := ["square"] }),
    ("circle.area", {}),
    ("square.area", {})]
  implementations := OrderedMap.ofList [("area", [⟨"circle", "circle.area"⟩, ⟨"square", "square.area"⟩])]

example : ProgramDocument.gallery.graph.scan.reachable.toList = ["circle.area", "draw", "main"] := by
  decide +kernel

end NativeBuild
