import Mathlib.Data.Finset.Card
import Mathlib.Data.Set.Basic
import NativeBuild.Program.Import

namespace NativeBuild

namespace ProgramGraph

variable (g : ProgramGraph)

def listed (M : Set String) (list : MethodBody → List String) : Set String :=
  {x | ∃ m ∈ M, ∃ b, g.body m = .ok b ∧ x ∈ list b}

structure Closed (M T S : Set String) : Prop where
  root : ∀ m ∈ g.roots, m ∈ M
  call : g.listed M (·.directCalls) ⊆ M
  allocation : g.listed M (·.allocatedTypes) ⊆ T
  slot : g.listed M (·.virtualCalls) ⊆ S
  behind : ∀ s ∈ S, ∀ i ∈ g.implementations s, i.type ∈ T → i.method ∈ M

inductive Walked : String → Prop
  | root {m : String} (hm : m ∈ g.roots) : Walked m
  | call {m c : String} {b : MethodBody} (hm : Walked m) (hb : g.body m = .ok b)
      (hc : c ∈ g.callees b) : Walked c

def outside (s : OrderedSet String) : Finset String := g.names.toFinset.filter (fun m => ¬ m ∈ s)

variable {g}

theorem mem_listed {M : Set String} {list : MethodBody → List String} {m x : String} {b : MethodBody}
    (hm : m ∈ M) (hb : g.body m = .ok b) (hx : x ∈ list b) : x ∈ g.listed M list := ⟨m, hm, b, hb, hx⟩

theorem listed_mono {M N : Set String} (h : M ⊆ N) (list : MethodBody → List String) :
    g.listed M list ⊆ g.listed N list := by
  rintro x ⟨m, hm, b, hb, hx⟩
  exact mem_listed (h hm) hb hx

theorem listed_empty (list : MethodBody → List String) : g.listed ∅ list = ∅ := by
  apply Set.eq_empty_of_forall_notMem
  rintro x ⟨m, hm, -⟩
  exact hm

theorem mem_listed_insert (M : Set String) (list : MethodBody → List String) (m x : String) :
    x ∈ g.listed (insert m M) list ↔ (∃ b, g.body m = .ok b ∧ x ∈ list b) ∨ x ∈ g.listed M list := by
  constructor
  · rintro ⟨n, hn, b, hb, hx⟩
    rcases hn with rfl | hn
    · exact Or.inl ⟨b, hb, hx⟩
    · exact Or.inr (mem_listed hn hb hx)
  · rintro (⟨b, hb, hx⟩ | hx)
    · exact mem_listed (Set.mem_insert m M) hb hx
    · exact listed_mono (Set.subset_insert m M) list hx

theorem names_closed : g.Closed {m | m ∈ g.names} Set.univ Set.univ where
  root := g.root_mem
  call := by
    rintro c ⟨m, -, b, hb, hc⟩
    exact g.call_mem m b hb c hc
  allocation := Set.subset_univ _
  slot := Set.subset_univ _
  behind := fun s _ i hi _ => g.implementation_mem s i hi

theorem walked_closed : g.Closed {m | g.Walked m} Set.univ (g.listed {m | g.Walked m} (·.virtualCalls)) where
  root := fun _ hm => .root hm
  call := by
    rintro c ⟨m, hm, b, hb, hc⟩
    exact .call hm hb (List.mem_append_left _ hc)
  allocation := Set.subset_univ _
  slot := subset_rfl
  behind := by
    -- the type does not matter: a walk follows every method behind a slot
    rintro s ⟨m, hm, b, hb, hs⟩ i hi -
    apply Walked.call hm hb
    apply List.mem_append_right
    exact List.mem_flatMap.mpr ⟨s, hs, List.mem_map_of_mem hi⟩

theorem callees_mem_names {m : String} {b : MethodBody} (hb : g.body m = .ok b) :
    ∀ c ∈ g.callees b, c ∈ g.names := by
  intro c hc
  rcases List.mem_append.mp hc with hc | hc
  · exact g.call_mem m b hb c hc
  · obtain ⟨s, -, hc⟩ := List.mem_flatMap.mp hc
    obtain ⟨i, hi, rfl⟩ := List.mem_map.mp hc
    exact g.implementation_mem s i hi

theorem outside_card_le (s : OrderedSet String) : (g.outside s).card ≤ g.names.length :=
  (Finset.card_filter_le _ _).trans (List.toFinset_card_le g.names)

theorem outside_card_lt {s t : OrderedSet String} {m : String} (hst : ∀ x ∈ s, x ∈ t)
    (hm : m ∈ g.names) (hs : ¬ m ∈ s) (ht : m ∈ t) : (g.outside t).card < (g.outside s).card := by
  apply Finset.card_lt_card
  rw [Finset.ssubset_iff_of_subset]
  · refine ⟨m, ?_, ?_⟩
    · simp only [outside, Finset.mem_filter, List.mem_toFinset]
      exact ⟨hm, hs⟩
    · simp only [outside, Finset.mem_filter, not_and, not_not]
      exact fun _ => ht
  · intro x hx
    simp only [outside, Finset.mem_filter, List.mem_toFinset] at hx ⊢
    exact ⟨hx.1, fun h => hx.2 (hst x h)⟩

end ProgramGraph

end NativeBuild
