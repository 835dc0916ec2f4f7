import NativeBuild.Proofs.Program.Devirtualization

namespace NativeBuild

structure ScanResult.Exact (g : ProgramGraph) (r : ScanResult) : Prop where
  devirtualized_iff : ∀ slot target, r.devirtualized.get? slot = some target ↔
    slot ∈ g.listed {m | m ∈ r.reachable} (·.virtualCalls) ∧
      {m | ∃ i ∈ g.implementations slot, i.type ∈ r.allocated ∧ i.method = m} = {target}
  target_reachable : ∀ slot target, r.devirtualized.get? slot = some target → target ∈ r.reachable
  vtable_key_iff : ∀ t, t ∈ r.vtableLayout.keys ↔
    t ∈ r.allocated ∧ ∃ slot ∈ g.listed {m | m ∈ r.reachable} (·.virtualCalls),
      ∃ i ∈ g.implementations slot, i.type = t
  vtable_slots : ∀ t slots, r.vtableLayout.get? t = some slots → ∀ slot, slot ∈ slots ↔
    slot ∈ g.listed {m | m ∈ r.reachable} (·.virtualCalls) ∧ ∃ i ∈ g.implementations slot, i.type = t
  dictionary_key_iff : ∀ m, m ∈ r.dictionaryLayout.keys ↔
    m ∈ r.reachable ∧ ∃ b, g.body m = .ok b ∧ b.dictionaryLookups ≠ []
  dictionary_entries : ∀ m entries b, r.dictionaryLayout.get? m = some entries → g.body m = .ok b →
    ∀ x, x ∈ entries ↔ x ∈ b.dictionaryLookups
  failure_iff : ∀ m e, r.importFailures.get? m = some e ↔ m ∈ r.reachable ∧ g.body m = .error e
  deadTypeCheck_iff : ∀ t, t ∈ r.deadTypeChecks ↔
    t ∈ g.listed {m | m ∈ r.reachable} (·.typeChecks) ∧ ¬ t ∈ r.allocated

namespace OrderedMap

theorem mem_keys_iff_exists {β : Type} {m : OrderedMap String β} {k : String} :
    k ∈ m.keys ↔ ∃ v, m.get? k = some v := by
  rw [mem_keys_iff, Option.isSome_iff_exists]

end OrderedMap

namespace ProgramGraph

variable {g : ProgramGraph}

theorem mem_calledSlots_iff {slot : String} :
    slot ∈ g.calledSlots ↔ slot ∈ g.listed {m | m ∈ g.scan.reachable} (·.virtualCalls) :=
  g.scan_gathered.slot_iff slot

theorem setOf_targets_eq_singleton_iff {slot target : String} :
    {m | ∃ i ∈ g.implementations slot, i.type ∈ g.scan.allocated ∧ i.method = m} = {target} ↔
      ∀ m, m ∈ g.targets g.scan.allocated slot ↔ m = target := by
  rw [Set.ext_iff]
  apply forall_congr'
  intro m
  rw [mem_targets]
  exact Iff.rfl

theorem devirtualized_reachable {slot target : String} (h : g.scan.devirtualized.get? slot = some target) :
    target ∈ g.scan.reachable := by
  obtain ⟨hcalled, hunique⟩ := devirtualized_eq_some_iff.mp h
  obtain ⟨i, hi, htype, rfl⟩ := mem_targets.mp ((hunique target).mpr rfl)
  exact g.scan_closed.behind slot hcalled i hi htype

theorem mem_vtableLayout_keys_iff {t : String} :
    t ∈ g.scan.vtableLayout.keys ↔ ∃ slot, slot ∈ g.slotsOn t := by
  rw [OrderedMap.mem_keys_iff_exists]
  simp only [vtableLayout_eq_some_iff, exists_eq_left]

theorem dictionaryLayout_eq_some_iff {m : String} {entries : OrderedSet String} :
    g.scan.dictionaryLayout.get? m = some entries ↔
      m ∈ g.scan.reachable ∧ ∃ b, g.body m = .ok b ∧ b.dictionaryLookups ≠ [] ∧
        entries = OrderedSet.ofList b.dictionaryLookups :=
  g.scan_gathered.lookup_iff m entries

theorem scan_exact (g : ProgramGraph) : g.scan.Exact g where
  devirtualized_iff slot target := by
    rw [← mem_calledSlots_iff, setOf_targets_eq_singleton_iff]
    exact devirtualized_eq_some_iff
  target_reachable _ _ h := devirtualized_reachable h
  vtable_key_iff t := by
    rw [mem_vtableLayout_keys_iff]
    simp only [mem_slotsOn, mem_calledSlots_iff]
    constructor
    · rintro ⟨slot, hcalled, ht, hbehind⟩
      exact ⟨ht, slot, hcalled, hbehind⟩
    · rintro ⟨ht, slot, hcalled, hbehind⟩
      exact ⟨slot, hcalled, ht, hbehind⟩
  vtable_slots t slots h slot := by
    obtain ⟨rfl, some_slot, hsome⟩ := vtableLayout_eq_some_iff.mp h
    have ht : t ∈ g.scan.allocated := (mem_slotsOn.mp hsome).2.1
    rw [mem_slotsOn, mem_calledSlots_iff, and_iff_right ht]
  dictionary_key_iff m := by
    rw [OrderedMap.mem_keys_iff_exists]
    simp only [dictionaryLayout_eq_some_iff]
    constructor
    · rintro ⟨entries, hm, b, hb, hlookups, -⟩
      exact ⟨hm, b, hb, hlookups⟩
    · rintro ⟨hm, b, hb, hlookups⟩
      exact ⟨_, hm, b, hb, hlookups, rfl⟩
  dictionary_entries m entries b h hb x := by
    obtain ⟨-, b', hb', -, rfl⟩ := dictionaryLayout_eq_some_iff.mp h
    obtain rfl := Except.ok.inj (hb.symm.trans hb')
    exact OrderedSet.mem_ofList
  failure_iff _ _ := importFailures_eq_some_iff
  deadTypeCheck_iff _ := mem_deadTypeChecks

end ProgramGraph

def ProgramDocument.rounds : ProgramDocument where
  roots := ["main"]
  methods := OrderedMap.ofList [
    ("main", { directCalls := ["later"], virtualCalls := ["area"], allocatedTypes := ["disc"] }),
    ("later", { allocatedTypes := ["coin"], dictionaryLookups := ["list", "list"] }),
    ("round.area", {})]
  implementations := OrderedMap.ofList [
    ("area", [⟨"disc", "round.area"⟩, ⟨"coin", "round.area"⟩, ⟨"tile", "tile.area"⟩])]

example :
    let r := ProgramDocument.rounds.graph.scan
    r.devirtualized.toList = [("area", "round.area")] ∧ r.vtableLayout.keys = ["coin", "disc"] ∧
      r.dictionaryLayout.get? "later" = some (OrderedSet.ofList ["list"]) := by
  decide +kernel

end NativeBuild
