import NativeBuild.Build.Toolchain
import NativeBuild.Proofs.Program.Refinement
import NativeBuild.Proofs.Text.ByteOrder

namespace NativeBuild

structure ScanResult.FirstFailure (r : ScanResult) (m : String) (e : ImportFailure) : Prop where
  recorded : r.importFailures.get? m = some e
  least : ∀ k ∈ r.importFailures.keys, k ≠ m → Text.encodeUtf8 m.toList < Text.encodeUtf8 k.toList

abbrev Inquiry := StateM (List String)

namespace Inquiry

variable {α β : Type}

theorem run_pure (a : α) (asked : List String) : (pure a : Inquiry α).run asked = (a, asked) := rfl

theorem run_bind (x : Inquiry α) (f : α → Inquiry β) (asked : List String) :
    (x >>= f).run asked = (f (x.run asked).1).run (x.run asked).2 := rfl

theorem run_foldlM (f : α → String → Inquiry α) (step : α → String → α) (asks : String → List String)
    (h : ∀ a m asked, (f a m).run asked = (step a m, asked ++ asks m)) (ms : List String) (a : α)
    (asked : List String) : (ms.foldlM f a).run asked = (ms.foldl step a, asked ++ ms.flatMap asks) := by
  induction ms generalizing a asked with
  | nil => rw [List.foldlM_nil, run_pure, List.foldl_nil, List.flatMap_nil, List.append_nil]
  | cons m ms ih =>
    rw [List.foldlM_cons, run_bind, h, ih, List.foldl_cons, List.flatMap_cons, List.append_assoc]

theorem run_mapM (f : String → Inquiry α) (g : String → α) (asks : String → List String)
    (h : ∀ m asked, (f m).run asked = (g m, asked ++ asks m)) (ms : List String) (asked : List String) :
    (ms.mapM f).run asked = (ms.map g, asked ++ ms.flatMap asks) := by
  induction ms generalizing asked with
  | nil => rw [List.mapM_nil, run_pure, List.map_nil, List.flatMap_nil, List.append_nil]
  | cons m ms ih =>
    rw [List.mapM_cons, run_bind, h, run_bind, ih, List.flatMap_cons, List.map_cons, List.append_assoc]
    rfl

end Inquiry

namespace ProgramGraph

variable (g : ProgramGraph)

def ask (m : String) : Inquiry (Except ImportFailure MethodBody) := do
  modify (· ++ [m])
  return g.body m

def askWave (s : ScanState) (wave : List String) : Inquiry ScanState :=
  wave.foldlM (fun s m => return s.record m (← g.ask m)) (s.enter wave)

def askUpTo : Nat → ScanState → Inquiry ScanState
  | 0, s => return s
  | n + 1, s =>
    if s.nextWave g = [] then return s.enter []
    else do askUpTo n (← g.askWave s (s.nextWave g))

def askScan : Inquiry ScanResult :=
  return (← g.askUpTo (g.names.length + 1) (ScanRun.start g)).result g

def askRefined (scan : ScanResult) (m : String) : Inquiry (Except ImportFailure MethodBody) :=
  match scan.importFailures.get? m with
  | some e => return .error e
  | none => return (← g.ask m).map scan.refineBody

def scanThenImport (later : List String) : Inquiry (ScanResult × List (Except ImportFailure MethodBody)) := do
  let scan ← g.askScan
  return (scan, ← later.mapM (g.askRefined scan))

variable {g}

theorem run_ask (m : String) (asked : List String) : (g.ask m).run asked = (g.body m, asked ++ [m]) := rfl

theorem run_askWave (s : ScanState) (wave asked : List String) :
    (g.askWave s wave).run asked = (s.importWave g wave, asked ++ wave) := by
  rw [askWave, Inquiry.run_foldlM _ (fun s m => s.record m (g.body m)) (fun m => [m])]
  · rw [List.flatMap_singleton']
    rfl
  · intro s m asked
    rfl

theorem run_askUpTo (n : Nat) (s : ScanState) (asked : List String) :
    (g.askUpTo n s).run asked = ((ScanRun.upTo g n s).final, asked ++ (ScanRun.upTo g n s).imports) := by
  induction n generalizing s asked with
  | zero =>
    rw [askUpTo, ScanRun.upTo, Inquiry.run_pure]
    simp [ScanRun.imports]
  | succ n ih =>
    rw [askUpTo, ScanRun.upTo]
    by_cases hw : s.nextWave g = []
    · rw [if_pos hw, if_pos hw, Inquiry.run_pure]
      simp [ScanRun.imports]
    · simp only [hw, if_false, Inquiry.run_bind, run_askWave, ih, ScanRun.imports, List.flatten_cons,
        List.append_assoc]

theorem run_askScan (asked : List String) :
    g.askScan.run asked = (g.scan, asked ++ (ScanRun.of g).imports) := by
  rw [askScan, Inquiry.run_bind, run_askUpTo]
  rfl

theorem run_askRefined (scan : ScanResult) (m : String) (asked : List String) :
    (g.askRefined scan m).run asked = (g.refinedBody scan m, asked ++ scan.questions [m]) := by
  rw [askRefined, refinedBody]
  cases he : scan.importFailures.get? m with
  | some e =>
    rw [Inquiry.run_pure]
    simp [ScanResult.questions, OrderedMap.contains, he]
  | none =>
    rw [Inquiry.run_bind, run_ask, Inquiry.run_pure]
    simp [ScanResult.questions, OrderedMap.contains, he]

theorem run_scanThenImport (later asked : List String) :
    (g.scanThenImport later).run asked =
      ((g.scan, later.map (g.refine g.scan).body), asked ++ (ScanRun.of g).imports ++ g.scan.questions later) := by
  rw [scanThenImport, Inquiry.run_bind, run_askScan, Inquiry.run_bind,
    Inquiry.run_mapM _ _ _ (run_askRefined g.scan)]
  simp only [ScanResult.questions, ← List.filter_flatMap, List.flatMap_singleton']
  rfl

theorem upTo_reachable_iff (n : Nat) (s : ScanState) (m : String) :
    m ∈ (ScanRun.upTo g n s).final.reachable ↔ m ∈ s.reachable ∨ m ∈ (ScanRun.upTo g n s).imports := by
  induction n generalizing s with
  | zero => simp [ScanRun.upTo, ScanRun.imports]
  | succ n ih =>
    rw [ScanRun.upTo]
    by_cases hw : s.nextWave g = []
    · simp [hw, ScanRun.imports, ScanState.enter]
    · have hrest := ih (s.importWave g (s.nextWave g))
      rw [ScanState.mem_importWave_reachable, or_assoc] at hrest
      simp only [hw, if_false, ScanRun.imports, List.flatten_cons, List.mem_append] at hrest ⊢
      exact hrest

theorem upTo_imports_fresh (n : Nat) (s : ScanState) :
    (ScanRun.upTo g n s).imports.Nodup ∧ ∀ m ∈ (ScanRun.upTo g n s).imports, ¬ m ∈ s.reachable := by
  induction n generalizing s with
  | zero => simp [ScanRun.upTo, ScanRun.imports]
  | succ n ih =>
    rw [ScanRun.upTo]
    by_cases hw : s.nextWave g = []
    · simp [hw, ScanRun.imports]
    · obtain ⟨hnodup, hfresh⟩ := ih (s.importWave g (s.nextWave g))
      simp only [ScanState.mem_importWave_reachable, not_or] at hfresh
      simp only [hw, if_false, ScanRun.imports, List.flatten_cons]
      constructor
      · apply List.Nodup.append
        · exact OrderedSet.nodup_toList _
        · exact hnodup
        · exact fun m hm hrest => (hfresh m hrest).2 hm
      · intro m hm
        rcases List.mem_append.mp hm with hm | hm
        · exact (ScanState.mem_nextWave.mp hm).2
        · exact (hfresh m hm).1

theorem count_imports {m : String} (h : m ∈ g.scan.reachable) : (ScanRun.of g).imports.count m = 1 := by
  apply List.count_eq_one_of_mem
  · exact (upTo_imports_fresh _ _).1
  · have hm := (upTo_reachable_iff _ _ m).mp h
    exact hm.resolve_left (OrderedSet.not_mem_empty m)

theorem importAll_eq_error {front rest : List String} {m : String} {e : ImportFailure}
    (hfront : ∀ k ∈ front, ∃ b, g.body k = .ok b) (hm : g.body m = .error e) :
    g.importAll (front ++ m :: rest) = .error (.importing m e) := by
  induction front with
  | nil => rw [List.nil_append, importAll, importMethod, hm]
  | cons k front ih =>
    obtain ⟨⟨b, hb⟩, hfront⟩ := List.forall_mem_cons.mp hfront
    rw [List.cons_append, importAll, importMethod, hb]
    exact ih hfront

theorem exists_firstFailure (h : g.scan.importFailures ≠ ∅) : ∃ m e, g.scan.FirstFailure m e := by
  have hincreasing := g.scan.importFailures.increasing
  cases hf : g.scan.importFailures.toList with
  | nil =>
    apply absurd (OrderedMap.ext _) h
    intro k
    rw [OrderedMap.get?, hf]
    rfl
  | cons f fs =>
    rw [hf, List.pairwise_cons] at hincreasing
    have hrecorded : g.scan.importFailures.get? f.1 = some f.2 :=
      OrderedMap.mem_toList_iff.mp (hf ▸ List.mem_cons_self ..)
    refine ⟨f.1, f.2, hrecorded, ?_⟩
    intro k hk hne
    rw [OrderedMap.keys, hf, List.map_cons, List.mem_cons, or_iff_right hne] at hk
    obtain ⟨f', hf', rfl⟩ := List.mem_map.mp hk
    exact Text.encodeUtf8_toList_lt (hincreasing.1 f' hf')

theorem imported_before_firstFailure {front rest : List String} {m : String} {e : ImportFailure}
    (h : g.scan.FirstFailure m e) (hr : g.scan.reachable.toList = front ++ m :: rest) :
    ∀ k ∈ front, ∃ b, g.body k = .ok b := by
  have hincreasing := g.scan.reachable.increasing
  rw [hr, List.pairwise_append] at hincreasing
  -- a method before the first failure that failed as well would be recorded, against its being the first
  intro k hk
  have hkm : compare k m = .lt := hincreasing.2.2 k hk m (List.mem_cons_self ..)
  cases hb : g.body k with
  | ok b => exact ⟨b, rfl⟩
  | error e' =>
    have hreach : k ∈ g.scan.reachable := by
      rw [← OrderedSet.mem_toList, hr]
      exact List.mem_append_left _ hk
    have hkey : k ∈ g.scan.importFailures.keys := by
      rw [OrderedMap.mem_keys_iff, importFailures_eq_some_iff.mpr ⟨hreach, hb⟩]
      rfl
    have hne : k ≠ m := by
      rintro rfl
      simp at hkm
    exact absurd (Text.encodeUtf8_toList_lt hkm) (List.lt_asymm (h.least k hkey hne))

theorem importReachable_refine_eq_ok (h : g.scan.importFailures = ∅) :
    (g.refine g.scan).importReachable (some g.scan) = .ok g.scan.reachable.size := by
  have hbody := importFailures_eq_empty_iff.mp h
  have hall : (g.refine g.scan).importAll g.scan.reachable.toList = .ok () := by
    apply importAll_eq_ok_iff.mpr
    exact fun m hm => refine_importable_iff.mpr (hbody m hm)
  rw [importReachable, hall]
  rfl

theorem importReachable_refine_eq_error {m : String} {e : ImportFailure} (h : g.scan.FirstFailure m e) :
    (g.refine g.scan).importReachable (some g.scan) = .error (.importing m e) := by
  obtain ⟨hm, hb⟩ := importFailures_eq_some_iff.mp h.recorded
  obtain ⟨front, rest, hr⟩ := List.append_of_mem hm
  have hfront : ∀ k ∈ front, ∃ b, (g.refine g.scan).body k = .ok b :=
    fun k hk => refine_importable_iff.mpr (imported_before_firstFailure h hr k hk)
  have hbody : (g.refine g.scan).body m = .error e := by
    rw [refine_body, hb]
    rfl
  rw [importReachable, hr, importAll_eq_error hfront hbody]
  rfl

theorem generate_eq_error {m : String} {e : ImportFailure} (h : g.scan.FirstFailure m e) (c : Toolchain)
    (files : FileTree) (request : CodegenRequest) :
    c.generate files request g (some g.scan) = ⟨.error (.importing m e), files, {}⟩ := by
  rw [Toolchain.generate, Option.map_some, Option.getD_some]
  simp only [importReachable_refine_eq_error h]

theorem count_asked {m : String} (h : m ∈ g.scan.importFailures.keys) (later : List String) :
    ((g.scanThenImport later).run []).2.count m = 1 := by
  rw [OrderedMap.mem_keys_iff] at h
  obtain ⟨e, he⟩ := Option.isSome_iff_exists.mp h
  have hquestions : (g.scan.questions later).count m = 0 := by
    apply List.count_eq_zero_of_not_mem
    simp [ScanResult.questions, OrderedMap.contains, he]
  rw [run_scanThenImport, List.nil_append, List.count_append, hquestions,
    count_imports (importFailures_eq_some_iff.mp he).1]

theorem recorded_failures_decide (g : ProgramGraph) :
    (g.scan.importFailures = ∅ →
      (g.refine g.scan).importReachable (some g.scan) = .ok g.scan.reachable.size) ∧
    (g.scan.importFailures ≠ ∅ →
      ∃ m e, g.scan.FirstFailure m e ∧ g.body m = .error e ∧
        (g.refine g.scan).importReachable (some g.scan) = .error (.importing m e) ∧
        ∀ (c : Toolchain) (files : FileTree) (request : CodegenRequest),
          c.generate files request g (some g.scan) = ⟨.error (.importing m e), files, {}⟩) ∧
    ∀ later, ((g.scanThenImport later).run []).1 = (g.scan, later.map (g.refine g.scan).body) ∧
      ∀ m ∈ g.scan.importFailures.keys, ((g.scanThenImport later).run []).2.count m = 1 := by
  refine ⟨importReachable_refine_eq_ok, ?_, ?_⟩
  · intro h
    obtain ⟨m, e, hme⟩ := exists_firstFailure h
    have hb : g.body m = .error e := (importFailures_eq_some_iff.mp hme.recorded).2
    exact ⟨m, e, hme, hb, importReachable_refine_eq_error hme, generate_eq_error hme⟩
  · intro later
    refine ⟨?_, fun m hm => count_asked hm later⟩
    rw [run_scanThenImport]

end ProgramGraph

def ProgramDocument.gaps : ProgramDocument where
  roots := ["main"]
  methods := OrderedMap.ofList [
    ("main", { directCalls := ["zoom", "draw"] }),
    ("draw", { directCalls := ["blend"] })]
  unsupported := OrderedMap.ofList [("zoom", "function pointers")]

theorem ProgramGraph.gaps_recorded_failures_decide :
    let g := ProgramDocument.gaps.graph
    g.scan.importFailures ≠ ∅ ∧
    (∃ m e, g.scan.FirstFailure m e ∧ g.body m = .error e ∧
      (g.refine g.scan).importReachable (some g.scan) = .error (.importing m e) ∧
      ∀ (c : Toolchain) (files : FileTree) (request : CodegenRequest),
        c.generate files request g (some g.scan) = ⟨.error (.importing m e), files, {}⟩) ∧
    "zoom" ∈ g.scan.importFailures.keys ∧
    ((g.scanThenImport ["zoom", "blend", "zoom"]).run []).2.count "zoom" = 1 := by
  intro g
  have hne : g.scan.importFailures ≠ ∅ := by decide +kernel
  have hkey : "zoom" ∈ g.scan.importFailures.keys := by decide +kernel
  obtain ⟨-, hfirst, hasked⟩ := recorded_failures_decide g
  exact ⟨hne, hfirst hne, hkey, (hasked ["zoom", "blend", "zoom"]).2 "zoom" hkey⟩

example :
    let g := ProgramDocument.gaps.graph
    (g.refine g.scan).importReachable (some g.scan) =
      .error (.importing "blend" ⟨"blend", "method body not found"⟩) := by rfl

end NativeBuild
