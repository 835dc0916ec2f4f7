import NativeBuild.Proofs.Program.Scan

namespace NativeBuild

namespace OrderedMap

theorem addAll_map_comm {m : OrderedMap String (OrderedSet String)} {k l : String} (h : k ≠ l)
    (xs ys : List String) :
    (m.addAll (xs.map (k, ·))).addAll (ys.map (l, ·)) = (m.addAll (ys.map (l, ·))).addAll (xs.map (k, ·)) := by
  apply OrderedMap.ext
  intro a
  by_cases hk : k = a
  · subst hk
    simp [get?_addAll_map, members, Ne.symm h]
  · by_cases hl : l = a
    · subst hl
      simp [get?_addAll_map, members, h]
    · simp [get?_addAll_map, hk, hl]

theorem insert_comm {β : Type} {m : OrderedMap String β} {k l : String} (h : k ≠ l) (v w : β) :
    (m.insert k v).insert l w = (m.insert l w).insert k v := by
  apply OrderedMap.ext
  intro a
  by_cases hk : k = a
  · subst hk
    simp [Ne.symm h]
  · simp [hk]

end OrderedMap

theorem OrderedSet.insertAll_comm (s : OrderedSet String) (xs ys : List String) :
    (s.insertAll xs).insertAll ys = (s.insertAll ys).insertAll xs := by
  apply OrderedSet.ext
  intro a
  simp only [OrderedSet.mem_insertAll]
  exact or_left_comm

namespace ScanState

variable {g : ProgramGraph} {s : ScanState}

theorem record_comm (m n : String) :
    (s.record m (g.body m)).record n (g.body n) = (s.record n (g.body n)).record m (g.body m) := by
  by_cases hmn : m = n
  · rw [hmn]
  · cases hm : g.body m with
    | error e =>
      cases hn : g.body n with
      | error e' => simp only [record, OrderedMap.insert_comm hmn]
      | ok b => rfl
    | ok b =>
      cases hn : g.body n with
      | error e => rfl
      | ok b' =>
        simp only [record, OrderedSet.insertAll_comm _ b.directCalls,
          OrderedSet.insertAll_comm _ b.virtualCalls, OrderedSet.insertAll_comm _ b.allocatedTypes,
          OrderedSet.insertAll_comm _ b.typeChecks, OrderedMap.addAll_map_comm hmn]

theorem recordAll_perm {xs ys : List String} (h : xs.Perm ys) : s.recordAll g xs = s.recordAll g ys :=
  h.foldl_eq' (fun m _ n _ _ => record_comm m n) s

end ScanState

/-- A scan under way: what it knows, the methods of its wave whose imports are not taken in yet, and
the waves that it has started. -/
structure ScanProgress where
  state : ScanState
  pending : List String
  waves : List (List String)

namespace ScanProgress

variable {g : ProgramGraph} {x y : ScanProgress}

def start (g : ProgramGraph) : ScanProgress := ⟨ScanRun.start g, [], []⟩

inductive Step (g : ProgramGraph) : ScanProgress → ScanProgress → Prop
  | merge {x : ScanProgress} {m : String} (hm : m ∈ x.pending) :
      Step g x ⟨x.state.record m (g.body m), x.pending.erase m, x.waves⟩
  | wave {x : ScanProgress} (hp : x.pending = []) (hw : x.state.nextWave g ≠ []) :
      Step g x ⟨x.state.enter (x.state.nextWave g), x.state.nextWave g, x.waves ++ [x.state.nextWave g]⟩

inductive Reached (g : ProgramGraph) : Nat → ScanProgress → Prop
  | start : Reached g 0 (start g)
  | step {n : Nat} {x y : ScanProgress} (hr : Reached g n x) (hs : Step g x y) : Reached g (n + 1) y

def Finished (g : ProgramGraph) (x : ScanProgress) : Prop := x.pending = [] ∧ x.state.nextWave g = []

def drained (g : ProgramGraph) (x : ScanProgress) : ScanState := x.state.recordAll g x.pending

/-- What is left of the scan is what the scan in a fixed order has left. -/
structure OnCourse (g : ProgramGraph) (x : ScanProgress) : Prop where
  settled : (x.drained g).Settled g
  ahead : ∃ n, (g.outside (x.drained g).reachable).card < n ∧
    (ScanRun.of g).waves = x.waves ++ (ScanRun.upTo g n (x.drained g)).waves ∧
    (ScanRun.of g).final = (ScanRun.upTo g n (x.drained g)).final

def work (g : ProgramGraph) (x : ScanProgress) : Nat :=
  2 * (g.outside x.state.reachable).card + x.pending.length

theorem drained_of_pending_eq_nil (h : x.pending = []) : x.drained g = x.state := by
  rw [drained, h]
  rfl

theorem drained_merge {m : String} (hm : m ∈ x.pending) :
    drained g ⟨x.state.record m (g.body m), x.pending.erase m, x.waves⟩ = x.drained g :=
  (ScanState.recordAll_perm (List.perm_cons_erase hm)).symm

theorem onCourse_start (g : ProgramGraph) : OnCourse g (start g) where
  settled := ScanState.settled_start g
  ahead := by
    refine ⟨g.names.length + 1, ?_, rfl, rfl⟩
    have hle := ProgramGraph.outside_card_le (g := g) (ScanRun.start g).reachable
    exact Nat.lt_succ_of_le hle

theorem Step.onCourse (h : Step g x y) (hx : OnCourse g x) : OnCourse g y := by
  cases h with
  | merge hm =>
    -- taking in a pending method leaves the drained state as it was
    have hd := drained_merge (g := g) hm
    exact ⟨hd ▸ hx.settled, hd ▸ hx.ahead⟩
  | wave hp hw =>
    -- a new wave takes one round from the scan in a fixed order
    obtain ⟨hs, n, hn, hwaves, hfinal⟩ := hx
    rw [drained_of_pending_eq_nil hp] at hs hn hwaves hfinal
    obtain ⟨k, rfl⟩ : ∃ k, n = k + 1 := ⟨n - 1, by omega⟩
    have hlt := hs.outside_lt hw
    rw [ScanRun.upTo] at hwaves hfinal
    simp only [hw, if_false] at hwaves hfinal
    refine ⟨hs.importWave, k, ?_, ?_, hfinal⟩
    · change (g.outside (x.state.importWave g (x.state.nextWave g)).reachable).card < k
      omega
    · rw [hwaves, List.append_assoc]
      rfl

theorem Reached.onCourse {n : Nat} (h : Reached g n x) : OnCourse g x := by
  induction h with
  | start => exact onCourse_start g
  | step _ hs ih => exact hs.onCourse ih

theorem outside_insertAll_le {s : OrderedSet String} {wave : List String} (hnodup : wave.Nodup)
    (hnames : ∀ m ∈ wave, m ∈ g.names) (hnew : ∀ m ∈ wave, ¬ m ∈ s) :
    (g.outside (s.insertAll wave)).card + wave.length ≤ (g.outside s).card := by
  have hdisjoint : Disjoint (g.outside (s.insertAll wave)) wave.toFinset := by
    rw [Finset.disjoint_right]
    intro m hm hout
    have hin : m ∈ s.insertAll wave := OrderedSet.mem_insertAll.mpr (Or.inl (List.mem_toFinset.mp hm))
    exact (Finset.mem_filter.mp hout).2 hin
  rw [← List.toFinset_card_of_nodup hnodup, ← Finset.card_union_of_disjoint hdisjoint]
  apply Finset.card_le_card
  intro m hm
  simp only [ProgramGraph.outside, Finset.mem_union, Finset.mem_filter, List.mem_toFinset,
    OrderedSet.mem_insertAll, not_or] at hm ⊢
  rcases hm with ⟨hm, -, hs⟩ | hm
  · exact ⟨hm, hs⟩
  · exact ⟨hnames m hm, hnew m hm⟩

theorem Step.work_lt (h : Step g x y) (hx : OnCourse g x) : y.work g < x.work g := by
  cases h with
  | @merge m hm =>
    have hreach : (x.state.record m (g.body m)).reachable = x.state.reachable :=
      ScanState.recordAll_reachable [m]
    have hlen := List.length_erase_of_mem hm
    have hpos := List.length_pos_of_mem hm
    simp only [work, hreach]
    omega
  | wave hp hw =>
    have hs := hx.settled
    rw [drained_of_pending_eq_nil hp] at hs
    have hle : (g.outside (x.state.enter (x.state.nextWave g)).reachable).card +
        (x.state.nextWave g).length ≤ (g.outside x.state.reachable).card := by
      apply outside_insertAll_le
      · exact OrderedSet.nodup_toList _
      · exact fun m hm => hs.nextWave_subset ProgramGraph.names_closed hm
      · exact fun m hm => (ScanState.mem_nextWave.mp hm).2
    have hpos := List.length_pos_of_ne_nil hw
    simp only [work]
    omega

theorem Reached.steps_le {n : Nat} (h : Reached g n x) : n + x.work g ≤ 2 * g.names.length := by
  induction h with
  | start =>
    have hle := ProgramGraph.outside_card_le (g := g) (ScanRun.start g).reachable
    simp only [work, ScanProgress.start, List.length_nil]
    omega
  | step hr hs ih =>
    have hlt := hs.work_lt hr.onCourse
    omega

theorem finished_or_step (g : ProgramGraph) (x : ScanProgress) : x.Finished g ∨ ∃ y, Step g x y := by
  cases hp : x.pending with
  | nil =>
    by_cases hw : x.state.nextWave g = []
    · exact Or.inl ⟨hp, hw⟩
    · exact Or.inr ⟨_, .wave hp hw⟩
  | cons m rest => exact Or.inr ⟨_, .merge (hp ▸ List.mem_cons_self ..)⟩

theorem OnCourse.finished (h : OnCourse g x) (hf : x.Finished g) :
    x.waves = (ScanRun.of g).waves ∧ x.state.result g = g.scan := by
  obtain ⟨hp, hw⟩ := hf
  obtain ⟨-, n, hn, hwaves, hfinal⟩ := h
  rw [drained_of_pending_eq_nil hp] at hn hwaves hfinal
  obtain ⟨k, rfl⟩ : ∃ k, n = k + 1 := ⟨n - 1, by omega⟩
  rw [ScanRun.upTo] at hwaves hfinal
  simp only [hw, if_true] at hwaves hfinal
  constructor
  · rw [hwaves, List.append_nil]
  · rw [ProgramGraph.scan, hfinal]
    rfl

theorem schedule_independent {n : Nat} (h : Reached g n x) :
    n ≤ 2 * g.names.length ∧ (x.Finished g ∨ ∃ y, Step g x y) ∧ x.waves <+: (ScanRun.of g).waves ∧
      (x.Finished g → x.waves = (ScanRun.of g).waves ∧ x.state.result g = g.scan) := by
  have hx := h.onCourse
  refine ⟨?_, finished_or_step g x, ?_, hx.finished⟩
  · exact (Nat.le_add_right n _).trans h.steps_le
  · obtain ⟨k, -, hwaves, -⟩ := hx.ahead
    exact ⟨_, hwaves.symm⟩

end ScanProgress

def ProgramDocument.crossing : ProgramDocument where
  roots := ["main"]
  methods := OrderedMap.ofList [
    ("main", { directCalls := ["caller", "maker", "missing"] }),
    ("caller", { virtualCalls := ["area"] }),
    ("maker", { allocatedTypes := ["circle"] }),
    ("circle.area", {})]
  implementations := OrderedMap.ofList [("area", [⟨"circle", "circle.area"⟩])]

theorem ScanProgress.crossing_schedule_independent :
    let g := ProgramDocument.crossing.graph
    ∃ x, Reached g 8 x ∧ x.Finished g ∧
      (8 ≤ 2 * g.names.length ∧ (x.Finished g ∨ ∃ y, Step g x y) ∧ x.waves <+: (ScanRun.of g).waves ∧
        (x.Finished g → x.waves = (ScanRun.of g).waves ∧ x.state.result g = g.scan)) := by
  intro g
  have h₂ : Reached g 2 _ :=
    .step (.step .start (.wave rfl (by decide +kernel))) (.merge (m := "main") (by decide +kernel))
  have h₃ : Reached g 3 _ := .step h₂ (.wave (by decide +kernel) (by decide +kernel))
  have h₄ : Reached g 4 _ := .step h₃ (.merge (m := "missing") (by decide +kernel))
  have h₅ : Reached g 5 _ := .step h₄ (.merge (m := "maker") (by decide +kernel))
  have h₆ : Reached g 6 _ := .step h₅ (.merge (m := "caller") (by decide +kernel))
  have h₇ : Reached g 7 _ := .step h₆ (.wave (by decide +kernel) (by decide +kernel))
  have h₈ : Reached g 8 _ := .step h₇ (.merge (m := "circle.area") (by decide +kernel))
  exact ⟨_, h₈, ⟨by decide +kernel, by decide +kernel⟩, schedule_independent h₈⟩

end NativeBuild
