import Mathlib.Algebra.Order.BigOperators.Group.List
import NativeBuild.Proofs.Program.Failures

namespace NativeBuild

inductive ScanRun.Completes (g : ProgramGraph) : ScanState → ScanRun → Prop
  | done {s : ScanState} (h : s.nextWave g = []) : Completes g s ⟨[], s.enter []⟩
  | wave {s : ScanState} {rest : ScanRun} (h : s.nextWave g ≠ [])
      (later : Completes g (s.importWave g (s.nextWave g)) rest) :
      Completes g s ⟨s.nextWave g :: rest.waves, rest.final⟩

namespace ScanRun

variable {g : ProgramGraph} {s : ScanState} {run run' : ScanRun}

theorem completes_upTo {n : Nat} (h : s.Settled g) (hn : (g.outside s.reachable).card < n) :
    Completes g s (upTo g n s) := by
  induction n generalizing s with
  | zero => omega
  | succ n ih =>
    rw [upTo]
    by_cases hw : s.nextWave g = []
    · rw [if_pos hw]
      exact .done hw
    · have hlt := h.outside_lt hw
      rw [if_neg hw]
      exact .wave hw (ih h.importWave (by omega))

theorem Completes.unique (h : Completes g s run) (h' : Completes g s run') : run = run' := by
  induction h generalizing run' with
  | done hw =>
    cases h' with
    | done _ => rfl
    | wave hw' _ => exact absurd hw hw'
  | wave hw _ ih =>
    cases h' with
    | done hw' => exact absurd hw' hw
    | wave _ later => rw [ih later]

theorem completes_iff : Completes g (start g) run ↔ run = of g := by
  have hof : Completes g (start g) (of g) := by
    apply completes_upTo (ScanState.settled_start g)
    have hle := ProgramGraph.outside_card_le (g := g) (start g).reachable
    omega
  constructor
  · exact fun h => h.unique hof
  · rintro rfl
    exact hof

theorem Completes.waves_ne_nil (h : Completes g s run) : ∀ wave ∈ run.waves, wave ≠ [] := by
  induction h with
  | done _ => exact List.forall_mem_nil _
  | wave hw _ ih => exact List.forall_mem_cons.mpr ⟨hw, ih⟩

theorem mem_imports_iff {m : String} : m ∈ (of g).imports ↔ m ∈ g.scan.reachable := by
  refine ((ProgramGraph.upTo_reachable_iff _ _ m).trans (or_iff_right ?_)).symm
  exact OrderedSet.not_mem_empty m

theorem imports_nodup : (of g).imports.Nodup := (ProgramGraph.upTo_imports_fresh _ _).1

theorem imports_length_le : (of g).imports.length ≤ (OrderedSet.ofList g.names).size := by
  have hsub : (of g).imports ⊆ (OrderedSet.ofList g.names).toList := by
    intro m hm
    have hname : m ∈ g.names := (g.scan_least ProgramGraph.names_closed).1 (mem_imports_iff.mp hm)
    exact OrderedSet.mem_ofList.mpr hname
  exact (List.subperm_of_subset imports_nodup hsub).length_le

theorem waves_length_le_imports (h : ∀ wave ∈ run.waves, wave ≠ []) : run.waves.length ≤ run.imports.length := by
  have hpos : ∀ n ∈ run.waves.map List.length, 1 ≤ n := by
    simp only [List.forall_mem_map]
    exact fun wave hwave => List.length_pos_of_ne_nil (h wave hwave)
  have hsum := List.length_le_sum_of_one_le _ hpos
  rwa [List.length_map, ← List.length_flatten] at hsum

end ScanRun

/-- A run is the only one that a scan of a document can make. Its waves divide the reachable methods, there are no
more of them than names that occur in the document as roots, as callees or behind slots, and the program is asked
for each reachable method once and for no other. -/
structure ProgramDocument.ScannedInWaves (d : ProgramDocument) (run : ScanRun) : Prop where
  completes_iff : ∀ other, ScanRun.Completes d.graph (ScanRun.start d.graph) other ↔ other = run
  result : run.final.result d.graph = d.graph.scan
  nonempty : ∀ wave ∈ run.waves, wave ≠ []
  disjoint : run.waves.Pairwise List.Disjoint
  reachable_iff : ∀ m, m ∈ d.graph.scan.reachable ↔ ∃ wave ∈ run.waves, m ∈ wave
  length_le : run.waves.length ≤ (OrderedSet.ofList d.names).size
  asked : ∃ asked, d.graph.askScan.run [] = (d.graph.scan, asked) ∧
    ∀ m, asked.count m = if m ∈ d.graph.scan.reachable then 1 else 0

namespace ProgramGraph

variable {g : ProgramGraph}

theorem count_imports_eq (m : String) :
    (ScanRun.of g).imports.count m = if m ∈ g.scan.reachable then 1 else 0 := by
  by_cases hm : m ∈ g.scan.reachable
  · rw [if_pos hm, count_imports hm]
  · rw [if_neg hm]
    exact List.count_eq_zero_of_not_mem (fun h => hm (ScanRun.mem_imports_iff.mp h))

end ProgramGraph

theorem ProgramDocument.scannedInWaves_of (d : ProgramDocument) : d.ScannedInWaves (ScanRun.of d.graph) := by
  have hnonempty := (ScanRun.completes_iff.mpr (rfl : ScanRun.of d.graph = _)).waves_ne_nil
  constructor
  case completes_iff => exact fun _ => ScanRun.completes_iff
  case result => rfl
  case nonempty => exact hnonempty
  case disjoint => exact (List.nodup_flatten.mp ScanRun.imports_nodup).2
  case reachable_iff =>
    intro m
    rw [← ScanRun.mem_imports_iff]
    exact List.mem_flatten
  case length_le => exact (ScanRun.waves_length_le_imports hnonempty).trans ScanRun.imports_length_le
  case asked =>
    refine ⟨(ScanRun.of d.graph).imports, ?_, ProgramGraph.count_imports_eq⟩
    rw [ProgramGraph.run_askScan, List.nil_append]

example : (ScanRun.of ProgramDocument.gallery.graph).waves = [["main"], ["draw"], ["circle.area"]] := by
  decide +kernel

end NativeBuild
