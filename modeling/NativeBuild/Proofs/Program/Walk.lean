import Mathlib.Data.List.TakeWhile
import NativeBuild.Proofs.Program.Closure

namespace NativeBuild

namespace ProgramGraph

variable (g : ProgramGraph)

def visited : Except CodegenFailure (OrderedSet String) := g.walk g.names.length ∅ g.roots

structure Walking (seen : OrderedSet String) (queue : List String) : Prop where
  root : ∀ m ∈ g.roots, m ∈ seen ∨ m ∈ queue
  imported : ∀ m ∈ seen, ∃ b, g.body m = .ok b ∧ ∀ c ∈ g.callees b, c ∈ seen ∨ c ∈ queue
  walked : ∀ m, m ∈ seen ∨ m ∈ queue → g.Walked m

variable {g}

theorem importReachable_none_eq_ok_iff {n : Nat} :
    g.importReachable none = .ok n ↔ ∃ v, g.visited = .ok v ∧ v.size = n := by
  change g.visited.map (·.size) = .ok n ↔ _
  cases g.visited <;> simp [Except.map]

theorem importReachable_none_eq_error_iff {f : CodegenFailure} :
    g.importReachable none = .error f ↔ g.visited = .error f := by
  change g.visited.map (·.size) = .error f ↔ _
  cases g.visited <;> simp [Except.map]

theorem walked_mem_names {m : String} (h : g.Walked m) : m ∈ g.names := by
  induction h with
  | root hm => exact g.root_mem _ hm
  | call _ hb hc => exact callees_mem_names hb _ hc

theorem walking_start : g.Walking ∅ g.roots where
  root := fun _ hm => Or.inr hm
  imported := fun m hm => absurd hm (OrderedSet.not_mem_empty m)
  walked := by
    rintro m (hm | hm)
    · exact absurd hm (OrderedSet.not_mem_empty m)
    · exact .root hm

theorem Walking.dropWhile {seen : OrderedSet String} {queue : List String} (h : g.Walking seen queue) :
    g.Walking seen (queue.dropWhile (fun m => decide (m ∈ seen))) := by
  have hdrop : ∀ m, m ∈ queue → m ∈ seen ∨ m ∈ queue.dropWhile (fun m => decide (m ∈ seen)) := by
    intro m hm
    rw [← List.takeWhile_append_dropWhile (p := fun m => decide (m ∈ seen)) (l := queue)] at hm
    rcases List.mem_append.mp hm with hm | hm
    · have hs := List.mem_takeWhile_imp (p := fun m => decide (m ∈ seen)) hm
      exact Or.inl (of_decide_eq_true hs)
    · exact Or.inr hm
  constructor
  · intro m hm
    exact (h.root m hm).elim Or.inl (hdrop m)
  · intro m hm
    obtain ⟨b, hb, hc⟩ := h.imported m hm
    exact ⟨b, hb, fun c hcb => (hc c hcb).elim Or.inl (hdrop c)⟩
  · rintro m (hm | hm)
    · exact h.walked m (Or.inl hm)
    · exact h.walked m (Or.inr ((List.dropWhile_sublist _).subset hm))

theorem Walking.visit {seen : OrderedSet String} {m : String} {rest : List String} {b : MethodBody}
    (h : g.Walking seen (m :: rest)) (hb : g.body m = .ok b) :
    g.Walking (seen.insert m) (rest ++ g.callees b) := by
  have hkeep : ∀ x, x ∈ seen ∨ x ∈ m :: rest → x ∈ seen.insert m ∨ x ∈ rest ++ g.callees b := by
    intro x hx
    simp only [OrderedSet.mem_insert, List.mem_append, List.mem_cons] at hx ⊢
    tauto
  constructor
  · exact fun x hx => hkeep x (h.root x hx)
  · intro x hx
    rcases OrderedSet.mem_insert.mp hx with rfl | hx
    · exact ⟨b, hb, fun c hc => Or.inr (List.mem_append_right _ hc)⟩
    · obtain ⟨b', hb', hc⟩ := h.imported x hx
      exact ⟨b', hb', fun c hcb => hkeep c (hc c hcb)⟩
  · have hm : g.Walked m := h.walked m (Or.inr (List.mem_cons_self ..))
    rintro x (hx | hx)
    · rcases OrderedSet.mem_insert.mp hx with rfl | hx
      · exact hm
      · exact h.walked x (Or.inl hx)
    · rcases List.mem_append.mp hx with hx | hx
      · exact h.walked x (Or.inr (List.mem_cons_of_mem _ hx))
      · exact .call hm hb hx

theorem Walking.outside_lt {seen : OrderedSet String} {m : String} {rest : List String}
    (h : g.Walking seen (m :: rest)) (hm : ¬ m ∈ seen) :
    (g.outside (seen.insert m)).card < (g.outside seen).card := by
  apply outside_card_lt
  · exact fun x hx => OrderedSet.mem_insert.mpr (Or.inr hx)
  · exact walked_mem_names (h.walked m (Or.inr (List.mem_cons_self ..)))
  · exact hm
  · exact OrderedSet.mem_insert.mpr (Or.inl rfl)

theorem not_mem_of_dropWhile_eq_cons {seen : OrderedSet String} {queue rest : List String} {m : String}
    (h : queue.dropWhile (fun m => decide (m ∈ seen)) = m :: rest) : ¬ m ∈ seen := by
  have hm := List.head?_dropWhile_not (fun m => decide (m ∈ seen)) queue
  rw [h] at hm
  exact of_decide_eq_false (by simpa using hm)

theorem walk_ends {n : Nat} {seen : OrderedSet String} {queue : List String}
    (h : g.Walking seen queue) (hn : (g.outside seen).card ≤ n) :
    (∃ v, g.walk n seen queue = .ok v ∧ g.Walking v []) ∨
      ∃ m e, g.walk n seen queue = .error (.importing m e) ∧ g.Walked m ∧ g.body m = .error e := by
  induction n generalizing seen queue with
  | zero =>
    cases hq : queue.dropWhile (fun m => decide (m ∈ seen)) with
    | nil => exact Or.inl ⟨seen, walk.eq_1 g seen queue _ hq, hq ▸ h.dropWhile⟩
    | cons m rest =>
      have hlt := Walking.outside_lt (hq ▸ h.dropWhile) (not_mem_of_dropWhile_eq_cons hq)
      omega
  | succ n ih =>
    cases hq : queue.dropWhile (fun m => decide (m ∈ seen)) with
    | nil => exact Or.inl ⟨seen, walk.eq_1 g seen queue _ hq, hq ▸ h.dropWhile⟩
    | cons m rest =>
      have hw : g.Walking seen (m :: rest) := hq ▸ h.dropWhile
      have hlt := hw.outside_lt (not_mem_of_dropWhile_eq_cons hq)
      cases hb : g.body m with
      | error e =>
        refine Or.inr ⟨m, e, ?_, hw.walked m (Or.inr (List.mem_cons_self ..)), hb⟩
        rw [walk.eq_3 g seen queue n m rest hq, importMethod, hb]
      | ok b =>
        rw [walk.eq_3 g seen queue n m rest hq, importMethod, hb]
        exact ih (hw.visit hb) (by omega)

theorem visited_ends :
    (∃ v, g.visited = .ok v ∧ g.Walking v []) ∨
      ∃ m e, g.visited = .error (.importing m e) ∧ g.Walked m ∧ g.body m = .error e :=
  walk_ends walking_start (outside_card_le ∅)

theorem Walking.mem_iff {v : OrderedSet String} (h : g.Walking v []) (m : String) : m ∈ v ↔ g.Walked m := by
  constructor
  · exact fun hm => h.walked m (Or.inl hm)
  · intro hm
    induction hm with
    | root hm => exact (h.root _ hm).resolve_right List.not_mem_nil
    | call _ hb hc ih =>
      obtain ⟨b, hb', hcall⟩ := h.imported _ ih
      obtain rfl := Except.ok.inj (hb.symm.trans hb')
      exact (hcall _ hc).resolve_right List.not_mem_nil

theorem visited_eq_ok_iff {v : OrderedSet String} :
    g.visited = .ok v ↔ (∀ m, m ∈ v ↔ g.Walked m) ∧ ∀ m, g.Walked m → ∃ b, g.body m = .ok b := by
  constructor
  · intro h
    rcases g.visited_ends with ⟨w, hw, hwalk⟩ | ⟨m, e, he, -⟩
    · obtain rfl := Except.ok.inj (h.symm.trans hw)
      refine ⟨hwalk.mem_iff, ?_⟩
      intro m hm
      obtain ⟨b, hb, -⟩ := hwalk.imported m ((hwalk.mem_iff m).mpr hm)
      exact ⟨b, hb⟩
    · rw [h] at he
      simp at he
  · rintro ⟨hv, hok⟩
    rcases g.visited_ends with ⟨w, hw, hwalk⟩ | ⟨m, e, -, hm, he⟩
    · have hvw : v = w := OrderedSet.ext (fun m => (hv m).trans (hwalk.mem_iff m).symm)
      rw [hvw, hw]
    · obtain ⟨b, hb⟩ := hok m hm
      rw [he] at hb
      simp at hb

theorem visited_eq_importing_iff :
    (∃ m e, g.visited = .error (.importing m e)) ↔ ¬ ∃ v, g.visited = .ok v := by
  constructor
  · rintro ⟨m, e, he⟩ ⟨v, hv⟩
    rw [he] at hv
    simp at hv
  · intro h
    rcases g.visited_ends with ⟨v, hv, -⟩ | ⟨m, e, he, -⟩
    · exact absurd ⟨v, hv⟩ h
    · exact ⟨m, e, he⟩

end ProgramGraph

end NativeBuild
