import NativeBuild.Proofs.Program.Facts

namespace NativeBuild

namespace ProgramGraph

inductive Action where
  | enter (method : String)
  | instantiate (type : String)
  | dispatch (slot type method : String)
  | leave (method : String)

structure Execution where
  active : List String := []
  instantiated : List String := []

/-- Each method in progress may go on, not only the one entered last, and a root may be entered at any
time. -/
inductive Step (g : ProgramGraph) : Execution → Action → Execution → Prop
  | root {x : Execution} {m : String} (hm : m ∈ g.roots) :
      Step g x (.enter m) { x with active := m :: x.active }
  | call {x : Execution} {m c : String} {b : MethodBody} (hm : m ∈ x.active) (hb : g.body m = .ok b)
      (hc : c ∈ b.directCalls) : Step g x (.enter c) { x with active := c :: x.active }
  | allocate {x : Execution} {m t : String} {b : MethodBody} (hm : m ∈ x.active) (hb : g.body m = .ok b)
      (ht : t ∈ b.allocatedTypes) :
      Step g x (.instantiate t) { x with instantiated := t :: x.instantiated }
  | dispatch {x : Execution} {m slot t target : String} {b : MethodBody} (hm : m ∈ x.active)
      (hb : g.body m = .ok b) (hs : slot ∈ b.virtualCalls) (ht : t ∈ x.instantiated)
      (hi : ⟨t, target⟩ ∈ g.implementations slot) :
      Step g x (.dispatch slot t target) { x with active := target :: x.active }
  | leave {x : Execution} {m : String} (hm : m ∈ x.active) :
      Step g x (.leave m) { x with active := x.active.erase m }

inductive Run (g : ProgramGraph) : List Action → Execution → Prop
  | start : Run g [] {}
  | step {actions : List Action} {a : Action} {x y : Execution} (hr : Run g actions x)
      (hs : Step g x a y) : Run g (actions ++ [a]) y

end ProgramGraph

namespace ScanResult

open ProgramGraph

def Allows (r : ScanResult) : Action → Prop
  | .enter m => m ∈ r.reachable
  | .instantiate t => t ∈ r.allocated ∧ ¬ t ∈ r.deadTypeChecks
  | .dispatch slot _ m =>
    m ∈ r.reachable ∧ ∀ target, r.devirtualized.get? slot = some target → m = target
  | .leave _ => True

structure Covers (r : ScanResult) (x : Execution) : Prop where
  active : ∀ m ∈ x.active, m ∈ r.reachable
  instantiated : ∀ t ∈ x.instantiated, t ∈ r.allocated

theorem covers_start (r : ScanResult) : r.Covers {} :=
  ⟨fun _ h => absurd h List.not_mem_nil, fun _ h => absurd h List.not_mem_nil⟩

theorem Covers.enter {r : ScanResult} {x : Execution} (h : r.Covers x) {m : String} (hm : m ∈ r.reachable) :
    r.Covers { x with active := m :: x.active } := by
  refine ⟨?_, h.instantiated⟩
  intro n hn
  rcases List.mem_cons.mp hn with rfl | hn
  · exact hm
  · exact h.active n hn

end ScanResult

namespace ProgramGraph

variable {g : ProgramGraph}

theorem not_mem_deadTypeChecks {t : String} (h : t ∈ g.scan.allocated) : ¬ t ∈ g.scan.deadTypeChecks :=
  fun hd => (OrderedSet.mem_diff.mp hd).2 h

theorem Step.allowed {x y : Execution} {a : Action} (h : Step g x a y) (hx : g.scan.Covers x) :
    g.scan.Allows a ∧ g.scan.Covers y := by
  have hc := g.scan_closed
  cases h with
  | @root m hm =>
    have hr : m ∈ g.scan.reachable := hc.root m hm
    exact ⟨hr, hx.enter hr⟩
  | @call m c b hm hb hcall =>
    have hr : c ∈ g.scan.reachable := hc.call (mem_listed (hx.active m hm) hb hcall)
    exact ⟨hr, hx.enter hr⟩
  | @allocate m t b hm hb ht =>
    have ha : t ∈ g.scan.allocated := hc.allocation (mem_listed (hx.active m hm) hb ht)
    refine ⟨⟨ha, not_mem_deadTypeChecks ha⟩, hx.active, ?_⟩
    intro u hu
    rcases List.mem_cons.mp hu with rfl | hu
    · exact ha
    · exact hx.instantiated u hu
  | @dispatch m slot t target b hm hb hs ht hi =>
    have ha : t ∈ g.scan.allocated := hx.instantiated t ht
    have hslot : slot ∈ g.calledSlots := hc.slot (mem_listed (hx.active m hm) hb hs)
    have hr : target ∈ g.scan.reachable := hc.behind slot hslot ⟨t, target⟩ hi ha
    have htarget : target ∈ g.targets g.scan.allocated slot := mem_targets.mpr ⟨⟨t, target⟩, hi, ha, rfl⟩
    refine ⟨⟨hr, ?_⟩, hx.enter hr⟩
    intro only honly
    exact ((devirtualized_eq_some_iff.mp honly).2 target).mp htarget
  | leave hm => exact ⟨trivial, fun n hn => hx.active n (List.mem_of_mem_erase hn), hx.instantiated⟩

theorem Run.covered {actions : List Action} {x : Execution} (h : Run g actions x) :
    g.scan.Covers x ∧ ∀ a ∈ actions, g.scan.Allows a := by
  induction h with
  | start => exact ⟨g.scan.covers_start, fun _ h => absurd h List.not_mem_nil⟩
  | step hr hs ih =>
    obtain ⟨ha, hy⟩ := hs.allowed ih.1
    refine ⟨hy, ?_⟩
    intro a hmem
    rcases List.mem_append.mp hmem with hmem | hmem
    · exact ih.2 a hmem
    · rw [List.mem_singleton.mp hmem]
      exact ha

theorem run_within_scan {actions : List Action} {x : Execution} (h : Run g actions x) :
    (∀ a ∈ actions, g.scan.Allows a) ∧ g.scan.Covers x := ⟨h.covered.2, h.covered.1⟩

theorem gallery_run_within_scan :
    let g := ProgramDocument.gallery.graph
    let actions := [.enter "main", .enter "draw", .instantiate "circle", .leave "draw",
      .dispatch "area" "circle" "circle.area"]
    let x : Execution := ⟨["circle.area", "main"], ["circle"]⟩
    Run g actions x ∧ (∀ a ∈ actions, g.scan.Allows a) ∧ g.scan.Covers x := by
  intro g actions x
  have hmain : g.body "main" = .ok { directCalls := ["draw"], virtualCalls := ["area"] } := rfl
  have hdraw : g.body "draw" =
      .ok { directCalls := ["main"], allocatedTypes := ["circle"], typeChecks := ["square"] } := rfl
  have h₁ : Run g [.enter "main"] ⟨["main"], []⟩ := @Run.step g [] _ _ _ .start (.root (by decide))
  have h₂ : Run g [.enter "main", .enter "draw"] ⟨["draw", "main"], []⟩ :=
    @Run.step g [_] _ _ _ h₁ (.call (by simp) hmain (by simp))
  have h₃ : Run g [.enter "main", .enter "draw", .instantiate "circle"] ⟨["draw", "main"], ["circle"]⟩ :=
    @Run.step g [_, _] _ _ _ h₂ (.allocate (List.mem_cons_self ..) hdraw (by simp))
  have h₄ : Run g [.enter "main", .enter "draw", .instantiate "circle", .leave "draw"] ⟨["main"], ["circle"]⟩ :=
    @Run.step g [_, _, _] _ _ _ h₃ (.leave (List.mem_cons_self ..))
  have h₅ : Run g actions x :=
    @Run.step g [_, _, _, _] _ _ _ h₄ (.dispatch (List.mem_cons_self ..) hmain (by simp) (by simp) (by decide))
  exact ⟨h₅, run_within_scan h₅⟩

end ProgramGraph

end NativeBuild
