import NativeBuild.Proofs.Program.Refinement

namespace NativeBuild

namespace ScanResult

def slotsLeft (scan : ScanResult) : OrderedMap String (OrderedSet String) :=
  (scan.vtableLayout.map (fun _ slots => slots.filter (fun slot => !scan.devirtualized.contains slot))).filter
    (fun _ slots => !slots.isEmpty)

end ScanResult

namespace ProgramGraph

variable {g : ProgramGraph} {M : Set String}

/-- A body, and what becomes of it: calls of a slot with one target come after the direct calls, one for
each, and what can be called is what stands behind its slots for allocated types. -/
structure Devirtualized (g : ProgramGraph) (b b' : MethodBody) : Prop where
  allocatedTypes : b'.allocatedTypes = b.allocatedTypes
  typeChecks : b'.typeChecks = b.typeChecks
  dictionaryLookups : b'.dictionaryLookups = b.dictionaryLookups
  virtualCalls : b'.virtualCalls = b.virtualCalls.filter (fun slot => !g.scan.devirtualized.contains slot)
  directCalls : ∃ targets, b'.directCalls = b.directCalls ++ targets ∧
    List.Forall₂ (fun slot target => g.scan.devirtualized.get? slot = some target ∧
        ∀ m, m ∈ g.targets g.scan.allocated slot ↔ m = target)
      (b.virtualCalls.filter g.scan.devirtualized.contains) targets
  callees : ∀ c, c ∈ (g.refine g.scan).callees b' ↔
    c ∈ b.directCalls ∨ ∃ slot ∈ b.virtualCalls, ∃ i ∈ g.implementations slot, i.type ∈ g.scan.allocated ∧ i.method = c

theorem forall₂_targets (slots : List String) :
    List.Forall₂ (fun slot target => g.scan.devirtualized.get? slot = some target ∧
        ∀ m, m ∈ g.targets g.scan.allocated slot ↔ m = target)
      (slots.filter g.scan.devirtualized.contains) (slots.filterMap g.scan.devirtualized.get?) := by
  induction slots with
  | nil => exact .nil
  | cons slot slots ih =>
    cases hslot : g.scan.devirtualized.get? slot with
    | none =>
      rw [List.filter_cons_of_neg (by simp [OrderedMap.contains, hslot]), List.filterMap_cons_none hslot]
      exact ih
    | some target =>
      rw [List.filter_cons_of_pos (by simp [OrderedMap.contains, hslot]), List.filterMap_cons_some hslot]
      exact .cons ⟨hslot, (devirtualized_eq_some_iff.mp hslot).2⟩ ih

theorem devirtualized_refineBody (g : ProgramGraph) (b : MethodBody) :
    g.Devirtualized b (g.scan.refineBody b) where
  allocatedTypes := rfl
  typeChecks := rfl
  dictionaryLookups := rfl
  virtualCalls := rfl
  directCalls := ⟨_, rfl, forall₂_targets b.virtualCalls⟩
  callees c := by
    rw [mem_callees_refineBody]
    simp only [mem_targets]

theorem refined_body_devirtualized {m : String} {b : MethodBody} (hb : g.body m = .ok b) :
    ∃ b', (g.refine g.scan).body m = .ok b' ∧ g.Devirtualized b b' := by
  refine ⟨g.scan.refineBody b, ?_, devirtualized_refineBody g b⟩
  rw [refine_body, hb]
  rfl

theorem gallery_body_devirtualized :
    let g := ProgramDocument.gallery.graph
    ∃ b', (g.refine g.scan).body "main" = .ok b' ∧ b'.virtualCalls = [] ∧
      b'.directCalls = ["draw", "circle.area"] ∧
      g.Devirtualized { directCalls := ["draw"], virtualCalls := ["area"] } b' := by
  intro g
  obtain ⟨b', hb', hdevirtualized⟩ := refined_body_devirtualized
    (show g.body "main" = .ok { directCalls := ["draw"], virtualCalls := ["area"] } by decide +kernel)
  have hbody : (g.refine g.scan).body "main" = .ok { directCalls := ["draw", "circle.area"] } := by decide +kernel
  obtain rfl := Except.ok.inj (hbody.symm.trans hb')
  exact ⟨_, hb', rfl, rfl, hdevirtualized⟩

theorem refine_body_eq_ok_iff {m : String} {b' : MethodBody} :
    (g.refine g.scan).body m = .ok b' ↔ ∃ b, g.body m = .ok b ∧ b' = g.scan.refineBody b := by
  rw [refine_body]
  cases g.body m with
  | error e => simp [Except.map]
  | ok b => simp [Except.map, eq_comm]

theorem refine_body_eq_error_iff {m : String} {e : ImportFailure} :
    (g.refine g.scan).body m = .error e ↔ g.body m = .error e := by
  rw [refine_body]
  cases g.body m <;> simp [Except.map]

theorem mem_listed_refine {list : MethodBody → List String} {x : String} :
    x ∈ (g.refine g.scan).listed M list ↔ ∃ m ∈ M, ∃ b, g.body m = .ok b ∧ x ∈ list (g.scan.refineBody b) := by
  constructor
  · rintro ⟨m, hm, b', hb', hx⟩
    obtain ⟨b, hb, rfl⟩ := refine_body_eq_ok_iff.mp hb'
    exact ⟨m, hm, b, hb, hx⟩
  · rintro ⟨m, hm, b, hb, hx⟩
    exact ⟨m, hm, _, refine_body_eq_ok_iff.mpr ⟨b, hb, rfl⟩, hx⟩

theorem mem_listed_refine_virtualCalls {slot : String} :
    slot ∈ (g.refine g.scan).listed M (·.virtualCalls) ↔
      slot ∈ g.listed M (·.virtualCalls) ∧ g.scan.devirtualized.get? slot = none := by
  rw [mem_listed_refine]
  simp only [ScanResult.refineBody, List.mem_filter, OrderedMap.contains, Bool.not_eq_true', Option.isSome_eq_false_iff,
    Option.isNone_iff_eq_none]
  constructor
  · rintro ⟨m, hm, b, hb, hslot, hnone⟩
    exact ⟨⟨m, hm, b, hb, hslot⟩, hnone⟩
  · rintro ⟨⟨m, hm, b, hb, hslot⟩, hnone⟩
    exact ⟨m, hm, b, hb, hslot, hnone⟩

theorem scan_closed_refine : (g.refine g.scan).Closed {m | m ∈ g.scan.reachable} {t | t ∈ g.scan.allocated}
    {slot | slot ∈ g.calledSlots ∧ g.scan.devirtualized.get? slot = none} where
  root := g.scan_closed.root
  call := by
    rintro c hc
    obtain ⟨m, hm, b, hb, hc⟩ := mem_listed_refine.mp hc
    obtain hc | hc := List.mem_append.mp hc
    · exact g.scan_closed.call (mem_listed hm hb hc)
    · obtain ⟨slot, -, htarget⟩ := List.mem_filterMap.mp hc
      obtain ⟨hcalled, hunique⟩ := devirtualized_eq_some_iff.mp htarget
      obtain ⟨i, hi, htype, rfl⟩ := mem_targets.mp ((hunique c).mpr rfl)
      exact g.scan_closed.behind slot hcalled i hi htype
  allocation := by
    rintro t ht
    obtain ⟨m, hm, b, hb, ht⟩ := mem_listed_refine.mp ht
    exact g.scan_closed.allocation (mem_listed hm hb ht)
  slot := by
    rintro slot hslot
    obtain ⟨hlisted, hnone⟩ := mem_listed_refine_virtualCalls.mp hslot
    exact ⟨g.scan_closed.slot hlisted, hnone⟩
  behind := fun slot hslot i hi htype => g.scan_closed.behind slot hslot.1 i (List.mem_filter.mp hi).1 htype

theorem rescan_closed :
    g.Closed {m | m ∈ (g.refine g.scan).scan.reachable} {t | t ∈ (g.refine g.scan).scan.allocated}
      (g.listed {m | m ∈ (g.refine g.scan).scan.reachable} (·.virtualCalls)) := by
  have hclosed := (g.refine g.scan).scan_closed
  obtain ⟨-, hallocated, -⟩ := (g.refine g.scan).scan_least scan_closed_refine
  have hcall {m c : String} {b : MethodBody} (hm : m ∈ (g.refine g.scan).scan.reachable) (hb : g.body m = .ok b)
      (hc : c ∈ (g.scan.refineBody b).directCalls) : c ∈ (g.refine g.scan).scan.reachable :=
    hclosed.call (mem_listed_refine.mpr ⟨m, hm, b, hb, hc⟩)
  constructor
  case root => exact hclosed.root
  case call =>
    rintro c ⟨m, hm, b, hb, hc⟩
    exact hcall hm hb (List.mem_append_left _ hc)
  case allocation =>
    rintro t ⟨m, hm, b, hb, ht⟩
    exact hclosed.allocation (mem_listed_refine.mpr ⟨m, hm, b, hb, ht⟩)
  case slot => exact subset_rfl
  case behind =>
    rintro slot ⟨m, hm, b, hb, hslot⟩ i hi htype
    have htarget : i.method ∈ g.targets g.scan.allocated slot := mem_targets.mpr ⟨i, hi, hallocated htype, rfl⟩
    cases hunique : g.scan.devirtualized.get? slot with
    | some target =>
      -- the one target of the slot is called directly now
      rw [((devirtualized_eq_some_iff.mp hunique).2 i.method).mp htarget]
      exact hcall hm hb (List.mem_append_right _ (List.mem_filterMap.mpr ⟨slot, hslot, hunique⟩))
    | none =>
      have hcalled := hclosed.slot (mem_listed_refine_virtualCalls.mpr ⟨⟨m, hm, b, hb, hslot⟩, hunique⟩)
      have hbehind : i ∈ (g.refine g.scan).implementations slot :=
        List.mem_filter.mpr ⟨hi, decide_eq_true (hallocated htype)⟩
      exact hclosed.behind slot hcalled i hbehind htype

theorem rescan_reachable : (g.refine g.scan).scan.reachable = g.scan.reachable :=
  OrderedSet.ext (fun _ => ⟨fun h => ((g.refine g.scan).scan_least scan_closed_refine).1 h,
    fun h => (g.scan_least rescan_closed).1 h⟩)

theorem rescan_allocated : (g.refine g.scan).scan.allocated = g.scan.allocated :=
  OrderedSet.ext (fun _ => ⟨fun h => ((g.refine g.scan).scan_least scan_closed_refine).2.1 h,
    fun h => (g.scan_least rescan_closed).2.1 h⟩)

theorem mem_rescan_calledSlots {slot : String} :
    slot ∈ (g.refine g.scan).calledSlots ↔ slot ∈ g.calledSlots ∧ g.scan.devirtualized.get? slot = none := by
  have hfirst : slot ∈ g.calledSlots ↔ slot ∈ g.listed {m | m ∈ g.scan.reachable} (·.virtualCalls) :=
    g.scan_gathered.slot_iff slot
  have hsecond : slot ∈ (g.refine g.scan).calledSlots ↔
      slot ∈ (g.refine g.scan).listed {m | m ∈ (g.refine g.scan).scan.reachable} (·.virtualCalls) :=
    (g.refine g.scan).scan_gathered.slot_iff slot
  rw [hsecond, rescan_reachable, mem_listed_refine_virtualCalls, hfirst]

theorem mem_rescan_targets {slot m : String} :
    m ∈ (g.refine g.scan).targets (g.refine g.scan).scan.allocated slot ↔ m ∈ g.targets g.scan.allocated slot := by
  rw [rescan_allocated, mem_targets, mem_targets]
  constructor
  · rintro ⟨i, hi, htype, rfl⟩
    exact ⟨i, (List.mem_filter.mp hi).1, htype, rfl⟩
  · rintro ⟨i, hi, htype, rfl⟩
    exact ⟨i, List.mem_filter.mpr ⟨hi, decide_eq_true htype⟩, htype, rfl⟩

theorem rescan_devirtualized : (g.refine g.scan).scan.devirtualized = ∅ := by
  apply OrderedMap.ext
  intro slot
  cases htarget : (g.refine g.scan).scan.devirtualized.get? slot with
  | none => rfl
  | some target =>
    obtain ⟨hcalled, hunique⟩ := devirtualized_eq_some_iff.mp htarget
    obtain ⟨hcalled, hnone⟩ := mem_rescan_calledSlots.mp hcalled
    have hfirst : g.scan.devirtualized.get? slot = some target :=
      devirtualized_eq_some_iff.mpr ⟨hcalled, fun m => mem_rescan_targets.symm.trans (hunique m)⟩
    rw [hnone] at hfirst
    cases hfirst

def slotsOn (g : ProgramGraph) (t : String) : OrderedSet String :=
  g.calledSlots.filter (fun slot => decide (t ∈ g.scan.allocated ∧ ∃ i ∈ g.implementations slot, i.type = t))

theorem mem_slotsOn {t slot : String} : slot ∈ g.slotsOn t ↔
    slot ∈ g.calledSlots ∧ t ∈ g.scan.allocated ∧ ∃ i ∈ g.implementations slot, i.type = t := by
  rw [slotsOn, OrderedSet.mem_filter, decide_eq_true_eq]

theorem vtableLayout_eq_some_iff {t : String} {slots : OrderedSet String} :
    g.scan.vtableLayout.get? t = some slots ↔ slots = g.slotsOn t ∧ ∃ slot, slot ∈ slots := by
  have hentry (slot : String) : (t, slot) ∈ g.calledSlots.toList.flatMap ((ScanRun.of g).final.vtableEntries g) ↔
      slot ∈ g.slotsOn t := by
    simp only [mem_slotsOn, List.mem_flatMap, ScanState.vtableEntries, List.mem_map, List.mem_filter, decide_eq_true_eq,
      Prod.mk.injEq]
    constructor
    · rintro ⟨slot', hcalled, i, ⟨hi, htype⟩, rfl, rfl⟩
      exact ⟨hcalled, htype, i, hi, rfl⟩
    · rintro ⟨hcalled, htype, i, hi, rfl⟩
      exact ⟨slot, hcalled, i, ⟨hi, htype⟩, rfl, rfl⟩
  have hset : slots = g.slotsOn t ↔ ∀ slot, slot ∈ slots ↔ slot ∈ g.slotsOn t := by
    constructor
    · rintro rfl slot
      exact Iff.rfl
    · exact OrderedSet.ext
  rw [hset, and_comm]
  simp only [← hentry]
  exact OrderedMap.get?_addAll_eq_some_iff

theorem mem_rescan_implementations {t slot : String} (ht : t ∈ g.scan.allocated) :
    (∃ i ∈ (g.refine g.scan).implementations slot, i.type = t) ↔ ∃ i ∈ g.implementations slot, i.type = t := by
  constructor
  · rintro ⟨i, hi, rfl⟩
    exact ⟨i, (List.mem_filter.mp hi).1, rfl⟩
  · rintro ⟨i, hi, rfl⟩
    exact ⟨i, List.mem_filter.mpr ⟨hi, decide_eq_true ht⟩, rfl⟩

theorem rescan_slotsOn (t : String) :
    (g.refine g.scan).slotsOn t = (g.slotsOn t).filter (fun slot => !g.scan.devirtualized.contains slot) := by
  apply OrderedSet.ext
  intro slot
  rw [OrderedSet.mem_filter, mem_slotsOn, mem_slotsOn, mem_rescan_calledSlots, rescan_allocated, and_right_comm,
    OrderedMap.contains, Bool.not_eq_true', Option.isSome_eq_false_iff, Option.isNone_iff_eq_none, and_congr_left_iff]
  intro _
  rw [and_congr_right_iff, and_congr_right_iff]
  exact fun _ ht => mem_rescan_implementations ht

theorem rescan_vtableLayout : (g.refine g.scan).scan.vtableLayout = g.scan.slotsLeft := by
  apply OrderedMap.ext
  intro t
  apply Option.ext
  intro slots
  have hsome : (!slots.isEmpty) = true ↔ ∃ slot, slot ∈ slots := by
    rw [Bool.not_eq_true']
    exact List.isEmpty_eq_false_iff_exists_mem
  rw [vtableLayout_eq_some_iff, rescan_slotsOn, ScanResult.slotsLeft, OrderedMap.get?_filter_eq_some_iff,
    OrderedMap.get?_map, Option.map_eq_some_iff, hsome, and_congr_left_iff]
  rintro ⟨slot, hslot⟩
  constructor
  · rintro rfl
    have hfull : slot ∈ g.slotsOn t := (OrderedSet.mem_filter.mp hslot).1
    exact ⟨g.slotsOn t, vtableLayout_eq_some_iff.mpr ⟨rfl, slot, hfull⟩, rfl⟩
  · rintro ⟨full, hfull, rfl⟩
    rw [(vtableLayout_eq_some_iff.mp hfull).1]

theorem rescan_dictionaryLayout : (g.refine g.scan).scan.dictionaryLayout = g.scan.dictionaryLayout := by
  apply OrderedMap.ext
  intro m
  apply Option.ext
  intro X
  rw [show (g.refine g.scan).scan.dictionaryLayout.get? m = some X ↔ _ from
      (g.refine g.scan).scan_gathered.lookup_iff m X,
    show g.scan.dictionaryLayout.get? m = some X ↔ _ from g.scan_gathered.lookup_iff m X, rescan_reachable]
  apply and_congr_right'
  constructor
  · rintro ⟨b', hb', hsome, hX⟩
    obtain ⟨b, hb, rfl⟩ := refine_body_eq_ok_iff.mp hb'
    exact ⟨b, hb, hsome, hX⟩
  · rintro ⟨b, hb, hsome, hX⟩
    exact ⟨_, refine_body_eq_ok_iff.mpr ⟨b, hb, rfl⟩, hsome, hX⟩

theorem mem_deadTypeChecks {t : String} : t ∈ g.scan.deadTypeChecks ↔
    t ∈ g.listed {m | m ∈ g.scan.reachable} (·.typeChecks) ∧ ¬ t ∈ g.scan.allocated := by
  rw [← g.scan_gathered.check_iff]
  exact OrderedSet.mem_diff

theorem rescan_deadTypeChecks : (g.refine g.scan).scan.deadTypeChecks = g.scan.deadTypeChecks := by
  apply OrderedSet.ext
  intro t
  rw [mem_deadTypeChecks, mem_deadTypeChecks, rescan_reachable, rescan_allocated, mem_listed_refine]
  rfl

theorem rescan_importFailures : (g.refine g.scan).scan.importFailures = g.scan.importFailures := by
  apply OrderedMap.ext
  intro m
  apply Option.ext
  intro e
  rw [importFailures_eq_some_iff, importFailures_eq_some_iff, rescan_reachable, refine_body_eq_error_iff]

theorem scan_refine (g : ProgramGraph) :
    (g.refine g.scan).scan = { g.scan with devirtualized := ∅, vtableLayout := g.scan.slotsLeft } := by
  show _ = (⟨g.scan.reachable, g.scan.allocated, ∅, g.scan.slotsLeft, g.scan.dictionaryLayout, g.scan.deadTypeChecks,
    g.scan.importFailures⟩ : ScanResult)
  rw [← rescan_reachable, ← rescan_allocated, ← rescan_devirtualized, ← rescan_vtableLayout,
    ← rescan_dictionaryLayout, ← rescan_deadTypeChecks, ← rescan_importFailures]

end ProgramGraph

end NativeBuild
