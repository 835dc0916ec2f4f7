import NativeBuild.Proofs.Program.Closure

namespace NativeBuild

namespace ScanState

variable {g : ProgramGraph} {s : ScanState}

structure Gathered (g : ProgramGraph) (M : Set String) (s : ScanState) : Prop where
  slot_iff : ∀ x, x ∈ s.calledSlots ↔ x ∈ g.listed M (·.virtualCalls)
  type_iff : ∀ x, x ∈ s.allocated ↔ x ∈ g.listed M (·.allocatedTypes)
  check_iff : ∀ x, x ∈ s.typeChecks ↔ x ∈ g.listed M (·.typeChecks)
  lookup_iff : ∀ m X, s.dictionaryLayout.get? m = some X ↔
    m ∈ M ∧ ∃ b, g.body m = .ok b ∧ b.dictionaryLookups ≠ [] ∧ X = OrderedSet.ofList b.dictionaryLookups
  failure_iff : ∀ m e, s.failures.get? m = some e ↔ m ∈ M ∧ g.body m = .error e

theorem gathered_start (g : ProgramGraph) : Gathered g ∅ (ScanRun.start g) where
  slot_iff := by simp [ScanRun.start, g.listed_empty]
  type_iff := by simp [ScanRun.start, g.listed_empty]
  check_iff := by simp [ScanRun.start, g.listed_empty]
  lookup_iff := by simp [ScanRun.start]
  failure_iff := by simp [ScanRun.start]

theorem Gathered.insert_lookups {M : Set String} (h : Gathered g M s) {m : String} {b : MethodBody}
    (hb : g.body m = .ok b) :
    (s.dictionaryLayout.members m).insertAll b.dictionaryLookups = OrderedSet.ofList b.dictionaryLookups := by
  apply OrderedSet.ext
  intro x
  rw [OrderedSet.mem_insertAll, OrderedSet.mem_ofList, or_iff_left_iff_imp, OrderedMap.members]
  cases hX : s.dictionaryLayout.get? m with
  | none => exact fun hx => absurd hx (OrderedSet.not_mem_empty x)
  | some X =>
    obtain ⟨-, b', hb', -, rfl⟩ := (h.lookup_iff m X).mp hX
    obtain rfl : b = b' := Except.ok.inj (hb.symm.trans hb')
    exact OrderedSet.mem_ofList.mp

theorem Gathered.record_lookup_iff {M : Set String} (h : Gathered g M s) (m n : String) (X : OrderedSet String) :
    (s.record m (g.body m)).dictionaryLayout.get? n = some X ↔
      n ∈ insert m M ∧ ∃ b, g.body n = .ok b ∧ b.dictionaryLookups ≠ [] ∧
        X = OrderedSet.ofList b.dictionaryLookups := by
  by_cases hn : m = n
  · subst hn
    cases hb : g.body m with
    | error e => simp [ScanState.record, hb, h.lookup_iff]
    | ok b =>
      rw [ScanState.record, OrderedMap.get?_addAll_map]
      by_cases hl : b.dictionaryLookups = []
      · simp [hl, hb, h.lookup_iff]
      · simp [hl, h.insert_lookups hb, eq_comm]
  · rw [Set.mem_insert_iff, or_iff_right (Ne.symm hn), ← h.lookup_iff]
    cases hb : g.body m with
    | error e => rfl
    | ok b => simp [ScanState.record, OrderedMap.get?_addAll_map, hn]

theorem Gathered.record_failure_iff {M : Set String} (h : Gathered g M s) (m n : String) (e : ImportFailure) :
    (s.record m (g.body m)).failures.get? n = some e ↔ n ∈ insert m M ∧ g.body n = .error e := by
  by_cases hn : m = n
  · subst hn
    cases hb : g.body m <;> simp [ScanState.record, hb, h.failure_iff]
  · rw [Set.mem_insert_iff, or_iff_right (Ne.symm hn), ← h.failure_iff]
    cases hb : g.body m <;> simp [ScanState.record, hn]

theorem Gathered.record {M : Set String} (h : Gathered g M s) (m : String) :
    Gathered g (insert m M) (s.record m (g.body m)) := by
  refine ⟨?_, ?_, ?_, h.record_lookup_iff m, h.record_failure_iff m⟩
  · intro x
    cases hb : g.body m <;> simp [ScanState.record, ProgramGraph.mem_listed_insert, hb, h.slot_iff]
  · intro x
    cases hb : g.body m <;> simp [ScanState.record, ProgramGraph.mem_listed_insert, hb, h.type_iff]
  · intro x
    cases hb : g.body m <;> simp [ScanState.record, ProgramGraph.mem_listed_insert, hb, h.check_iff]

def recordAll (g : ProgramGraph) (s : ScanState) (wave : List String) : ScanState :=
  wave.foldl (fun s m => s.record m (g.body m)) s

theorem importWave_eq (wave : List String) : s.importWave g wave = (s.enter wave).recordAll g wave := rfl

theorem setOf_mem_cons (m : String) (wave : List String) :
    {n | n ∈ m :: wave} = insert m {n | n ∈ wave} := by
  ext n
  exact List.mem_cons

theorem Gathered.recordAll {M : Set String} (h : Gathered g M s) (wave : List String) :
    Gathered g (M ∪ {m | m ∈ wave}) (s.recordAll g wave) := by
  induction wave generalizing M s with
  | nil =>
    have hnil : {m : String | m ∈ ([] : List String)} = ∅ := by simp
    rw [hnil, Set.union_empty]
    exact h
  | cons m wave ih =>
    rw [setOf_mem_cons, Set.union_insert, ← Set.insert_union]
    exact ih (h.record m)

theorem recordAll_reachable (wave : List String) : (s.recordAll g wave).reachable = s.reachable := by
  induction wave generalizing s with
  | nil => rfl
  | cons m wave ih =>
    have hm : (s.record m (g.body m)).reachable = s.reachable := by cases g.body m <;> rfl
    exact (ih (s := s.record m (g.body m))).trans hm

theorem mem_recordAll_discovered (wave : List String) (x : String) :
    x ∈ (s.recordAll g wave).discovered ↔
      x ∈ g.listed {m | m ∈ wave} (·.directCalls) ∨ x ∈ s.discovered := by
  induction wave generalizing s with
  | nil => simp [ScanState.recordAll, g.listed_empty]
  | cons m wave ih =>
    have hm : x ∈ (s.record m (g.body m)).discovered ↔
        (∃ b, g.body m = .ok b ∧ x ∈ b.directCalls) ∨ x ∈ s.discovered := by
      cases hb : g.body m <;> simp [ScanState.record]
    rw [setOf_mem_cons, ProgramGraph.mem_listed_insert, or_assoc, or_left_comm, ← hm]
    exact ih

theorem mem_importWave_reachable {wave : List String} {m : String} :
    m ∈ (s.importWave g wave).reachable ↔ m ∈ s.reachable ∨ m ∈ wave := by
  rw [importWave_eq, recordAll_reachable, enter, OrderedSet.mem_insertAll, or_comm]

theorem mem_importWave_discovered {wave : List String} {x : String} :
    x ∈ (s.importWave g wave).discovered ↔ x ∈ g.listed {m | m ∈ wave} (·.directCalls) := by
  rw [importWave_eq, mem_recordAll_discovered, enter, or_iff_left (OrderedSet.not_mem_empty x)]

theorem Gathered.enter {M : Set String} (h : Gathered g M s) (wave : List String) :
    Gathered g M (s.enter wave) :=
  ⟨h.slot_iff, h.type_iff, h.check_iff, h.lookup_iff, h.failure_iff⟩

end ScanState

end NativeBuild
