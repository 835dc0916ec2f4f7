import Mathlib.Data.List.Perm.Subperm
import NativeBuild.Proofs.Program.Scan
import NativeBuild.Proofs.Program.Walk

namespace NativeBuild

theorem eraseDups_isPrefix {xs ys : List String} (h : xs <+: ys) : xs.eraseDups <+: ys.eraseDups := by
  obtain ⟨rest, rfl⟩ := h
  rw [List.eraseDups_append]
  exact List.prefix_append _ _

theorem eraseDups_concat_of_mem {xs : List String} {x : String} (h : x ∈ xs) :
    (xs ++ [x]).eraseDups = xs.eraseDups := by
  have hnone : [x].removeAll xs = [] := by simp [List.removeAll, h]
  rw [List.eraseDups_append, hnone, List.eraseDups_nil, List.append_nil]

theorem eraseDups_concat_of_not_mem {xs : List String} {x : String} (h : ¬ x ∈ xs) :
    (xs ++ [x]).eraseDups = xs.eraseDups ++ [x] := by
  have hone : [x].removeAll xs = [x] := by simp [List.removeAll, h]
  rw [List.eraseDups_append, hone, List.eraseDups_cons, List.filter_nil, List.eraseDups_nil]

theorem nodup_eraseDups (xs : List String) : xs.eraseDups.Nodup := by
  induction xs using List.reverseRecOn with
  | nil => exact List.nodup_nil
  | append_singleton xs x ih =>
    by_cases h : x ∈ xs
    · rw [eraseDups_concat_of_mem h]
      exact ih
    · rw [eraseDups_concat_of_not_mem h]
      apply ih.append (List.nodup_singleton x)
      exact List.disjoint_singleton.mpr (fun hx => h (List.mem_eraseDups.mp hx))

namespace ProgramGraph

variable (g : ProgramGraph)

def calls (m : String) : List String :=
  match g.body m with
  | .ok b => g.callees b
  | .error _ => []

/-- The roots and then what methods call, caller by caller. Each stands where it is met first. -/
def metFrom (methods : List String) : List String := (g.roots ++ methods.flatMap g.calls).eraseDups

/-- The methods that are fewer than `n` calls away from the roots: first the roots, then what they call, then what
these call, and so on. -/
def nearest : Nat → List String
  | 0 => []
  | n + 1 => g.metFrom (nearest n)

def breadthFirst : List String := g.nearest g.names.length

/-- A walk with no bound on its steps, which takes one entry of the queue after the other: the methods that it
imports, in their order, and what it ends with. -/
inductive Walks : OrderedSet String → List String → List String → Except CodegenFailure (OrderedSet String) → Prop
  | done {seen : OrderedSet String} : Walks seen [] [] (.ok seen)
  | skip {seen : OrderedSet String} {m : String} {queue imports : List String}
      {outcome : Except CodegenFailure (OrderedSet String)} (hm : m ∈ seen) (later : Walks seen queue imports outcome) :
      Walks seen (m :: queue) imports outcome
  | visit {seen : OrderedSet String} {m : String} {b : MethodBody} {queue imports : List String}
      {outcome : Except CodegenFailure (OrderedSet String)} (hm : ¬ m ∈ seen) (hb : g.body m = .ok b)
      (later : Walks (seen.insert m) (queue ++ g.callees b) imports outcome) :
      Walks seen (m :: queue) (m :: imports) outcome
  | stop {seen : OrderedSet String} {m : String} {e : ImportFailure} {queue : List String} (hm : ¬ m ∈ seen)
      (hb : g.body m = .error e) : Walks seen (m :: queue) [m] (.error (.importing m e))

inductive ImportedInOrder : List String → Except CodegenFailure Nat → Prop
  | all (imported : ∀ m ∈ g.breadthFirst, ∃ b, g.body m = .ok b) :
      ImportedInOrder g.breadthFirst (.ok g.breadthFirst.length)
  | upTo {before after : List String} {m : String} {e : ImportFailure}
      (order : g.breadthFirst = before ++ m :: after) (imported : ∀ k ∈ before, ∃ b, g.body k = .ok b)
      (fails : g.body m = .error e) : ImportedInOrder (before ++ [m]) (.error (.importing m e))

variable {g} {n : Nat} {m : String}

theorem calls_eq {b : MethodBody} (hb : g.body m = .ok b) : g.calls m = g.callees b := by
  rw [calls, hb]

theorem mem_calls_iff {c : String} : c ∈ g.calls m ↔ ∃ b, g.body m = .ok b ∧ c ∈ g.callees b := by
  rw [calls]
  cases g.body m <;> simp

theorem mem_metFrom {methods : List String} :
    m ∈ g.metFrom methods ↔ m ∈ g.roots ∨ ∃ k ∈ methods, m ∈ g.calls k := by
  rw [metFrom, List.mem_eraseDups, List.mem_append, List.mem_flatMap]

theorem metFrom_isPrefix {xs ys : List String} (h : xs <+: ys) : g.metFrom xs <+: g.metFrom ys :=
  eraseDups_isPrefix ((List.prefix_append_right_inj g.roots).mpr (h.flatMap g.calls))

theorem mem_nearest_succ : m ∈ g.nearest (n + 1) ↔ m ∈ g.roots ∨ ∃ k ∈ g.nearest n, m ∈ g.calls k := by
  rw [nearest, mem_metFrom]

theorem nearest_walked (h : m ∈ g.nearest n) : g.Walked m := by
  induction n generalizing m with
  | zero => exact absurd h List.not_mem_nil
  | succ n ih =>
    obtain hroot | ⟨k, hk, hcall⟩ := mem_nearest_succ.mp h
    · exact .root hroot
    · obtain ⟨b, hb, hc⟩ := mem_calls_iff.mp hcall
      exact .call (ih hk) hb hc

theorem nearest_nodup (n : Nat) : (g.nearest n).Nodup := by
  cases n with
  | zero => exact List.nodup_nil
  | succ n => exact nodup_eraseDups _

theorem nearest_length_le (n : Nat) : (g.nearest n).length ≤ g.names.length :=
  (List.subperm_of_subset (nearest_nodup n) (fun _ hm => walked_mem_names (nearest_walked hm))).length_le

theorem nearest_isPrefix (n : Nat) : g.nearest n <+: g.nearest (n + 1) := by
  induction n with
  | zero => exact List.nil_prefix
  | succ n ih => exact metFrom_isPrefix ih

theorem nearest_grows (n : Nat) : g.nearest (n + 1) = g.nearest n ∨ n < (g.nearest (n + 1)).length := by
  induction n with
  | zero =>
    rw [List.length_pos_iff]
    exact eq_or_ne _ _
  | succ n ih =>
    obtain hsame | hgrown := ih
    · exact Or.inl (congrArg g.metFrom hsame)
    · have hlonger := (nearest_isPrefix (g := g) (n + 1)).length_le
      by_cases hlength : (g.nearest (n + 1 + 1)).length ≤ (g.nearest (n + 1)).length
      · exact Or.inl ((nearest_isPrefix (n + 1)).eq_of_length_le hlength).symm
      · right
        omega

theorem breadthFirst_eq : g.breadthFirst = g.metFrom g.breadthFirst := by
  obtain hsame | hgrown := nearest_grows (g := g) g.names.length
  · exact hsame.symm
  · have hle := nearest_length_le (g := g) (g.names.length + 1)
    omega

theorem nearest_isPrefix_breadthFirst (n : Nat) : g.nearest n <+: g.breadthFirst := by
  induction n with
  | zero => exact List.nil_prefix
  | succ n ih =>
    rw [breadthFirst_eq]
    exact metFrom_isPrefix ih

theorem mem_breadthFirst_iff : m ∈ g.breadthFirst ↔ g.Walked m := by
  constructor
  · exact nearest_walked
  · have hmem (x : String) : x ∈ g.breadthFirst ↔ x ∈ g.roots ∨ ∃ k ∈ g.breadthFirst, x ∈ g.calls k := by
      conv_lhs => rw [breadthFirst_eq]
      exact mem_metFrom
    intro h
    induction h with
    | root hm => exact (hmem _).mpr (Or.inl hm)
    | call _ hb hc ih => exact (hmem _).mpr (Or.inr ⟨_, ih, mem_calls_iff.mpr ⟨_, hb, hc⟩⟩)

theorem breadthFirst_least {M S : Set String} (h : g.Closed M Set.univ S) : {m | m ∈ g.breadthFirst} ⊆ M := by
  intro m hm
  have hwalked : g.Walked m := mem_breadthFirst_iff.mp hm
  clear hm
  induction hwalked with
  | root hm => exact h.root _ hm
  | call _ hb hc ih =>
    obtain hc | hc := List.mem_append.mp hc
    · exact h.call (mem_listed ih hb hc)
    · obtain ⟨slot, hslot, hc⟩ := List.mem_flatMap.mp hc
      obtain ⟨i, hi, rfl⟩ := List.mem_map.mp hc
      exact h.behind slot (h.slot (mem_listed ih hb hslot)) i hi trivial

theorem breadthFirst_closed :
    g.Closed {m | m ∈ g.breadthFirst} Set.univ (g.listed {m | m ∈ g.breadthFirst} (·.virtualCalls)) := by
  have hset : {m | m ∈ g.breadthFirst} = {m | g.Walked m} := Set.ext (fun _ => mem_breadthFirst_iff)
  rw [hset]
  exact walked_closed

variable {seen : OrderedSet String} {queue imports imports' : List String}
  {outcome outcome' : Except CodegenFailure (OrderedSet String)}

theorem Walks.unique (h : g.Walks seen queue imports outcome) (h' : g.Walks seen queue imports' outcome') :
    imports = imports' ∧ outcome = outcome' := by
  induction h generalizing imports' with
  | done =>
    cases h'
    exact ⟨rfl, rfl⟩
  | skip hm _ ih =>
    cases h' with
    | skip _ later => exact ih later
    | visit hm' _ _ => exact absurd hm hm'
    | stop hm' _ => exact absurd hm hm'
  | visit hm hb _ ih =>
    cases h' with
    | skip hm' _ => exact absurd hm' hm
    | visit _ hb' later =>
      obtain rfl := Except.ok.inj (hb.symm.trans hb')
      obtain ⟨rfl, rfl⟩ := ih later
      exact ⟨rfl, rfl⟩
    | stop _ hb' =>
      rw [hb] at hb'
      cases hb'
  | stop hm hb =>
    cases h' with
    | skip hm' _ => exact absurd hm' hm
    | visit _ hb' _ =>
      rw [hb] at hb'
      cases hb'
    | stop _ hb' =>
      obtain rfl := Except.error.inj (hb.symm.trans hb')
      exact ⟨rfl, rfl⟩

theorem walks_of_dropWhile (h : g.Walks seen (queue.dropWhile (fun m => decide (m ∈ seen))) imports outcome) :
    g.Walks seen queue imports outcome := by
  induction queue with
  | nil => exact h
  | cons m queue ih =>
    rw [List.dropWhile_cons] at h
    by_cases hm : m ∈ seen
    · rw [if_pos (decide_eq_true hm)] at h
      exact .skip hm (ih h)
    · rwa [if_neg (by simpa using hm)] at h

theorem walks_of_all_seen {n : Nat} (hq : queue.dropWhile (fun m => decide (m ∈ seen)) = []) :
    g.Walks seen queue [] (g.walk n seen queue) := by
  rw [walk.eq_1 g seen queue _ hq]
  apply walks_of_dropWhile
  rw [hq]
  exact .done

theorem walks_walk {n : Nat} (h : g.Walking seen queue) (hn : (g.outside seen).card ≤ n) :
    ∃ imports, g.Walks seen queue imports (g.walk n seen queue) := by
  induction n generalizing seen queue with
  | zero =>
    cases hq : queue.dropWhile (fun m => decide (m ∈ seen)) with
    | nil => exact ⟨[], walks_of_all_seen hq⟩
    | cons m rest =>
      have hlt := Walking.outside_lt (hq ▸ h.dropWhile) (not_mem_of_dropWhile_eq_cons hq)
      omega
  | succ n ih =>
    cases hq : queue.dropWhile (fun m => decide (m ∈ seen)) with
    | nil => exact ⟨[], walks_of_all_seen hq⟩
    | cons m rest =>
      have hw : g.Walking seen (m :: rest) := hq ▸ h.dropWhile
      have hm := not_mem_of_dropWhile_eq_cons hq
      have hlt := hw.outside_lt hm
      rw [walk.eq_3 g seen queue n m rest hq, importMethod]
      cases hb : g.body m with
      | error e =>
        refine ⟨[m], walks_of_dropWhile ?_⟩
        rw [hq]
        exact .stop hm hb
      | ok b =>
        obtain ⟨imports, himports⟩ := ih (hw.visit hb) (by omega)
        refine ⟨m :: imports, walks_of_dropWhile ?_⟩
        rw [hq]
        exact .visit hm hb himports

/-- How far a walk has come: the methods that it has imported, in their order, and the queue. What it has taken from
the queue so far and what is left there are the roots and the calls of these methods. -/
structure Underway (g : ProgramGraph) (done queue : List String) : Prop where
  stream : ∃ taken, g.roots ++ done.flatMap g.calls = taken ++ queue ∧ done = taken.eraseDups
  order : done <+: g.breadthFirst
  imported : ∀ m ∈ done, ∃ b, g.body m = .ok b

variable {done : List String}

theorem underway_start : g.Underway [] g.roots where
  stream := ⟨[], List.append_nil _, rfl⟩
  order := List.nil_prefix
  imported := List.forall_mem_nil _

theorem Underway.skip (h : g.Underway done (m :: queue)) (hm : m ∈ done) : g.Underway done queue := by
  obtain ⟨taken, hstream, rfl⟩ := h.stream
  refine ⟨⟨taken ++ [m], ?_, ?_⟩, h.order, h.imported⟩
  · rw [hstream, List.append_assoc, List.singleton_append]
  · exact (eraseDups_concat_of_mem (List.mem_eraseDups.mp hm)).symm

theorem Underway.concat_isPrefix (h : g.Underway done (m :: queue)) (hm : ¬ m ∈ done) :
    done ++ [m] <+: g.breadthFirst := by
  obtain ⟨taken, hstream, rfl⟩ := h.stream
  rw [List.mem_eraseDups] at hm
  rw [← eraseDups_concat_of_not_mem hm]
  have htaken : taken ++ [m] <+: g.roots ++ taken.eraseDups.flatMap g.calls :=
    ⟨queue, by rw [hstream, List.append_assoc, List.singleton_append]⟩
  calc (taken ++ [m]).eraseDups
      <+: g.metFrom taken.eraseDups := eraseDups_isPrefix htaken
    _ <+: g.metFrom g.breadthFirst := metFrom_isPrefix h.order
    _ = g.breadthFirst := breadthFirst_eq.symm

theorem Underway.visit {b : MethodBody} (h : g.Underway done (m :: queue)) (hm : ¬ m ∈ done) (hb : g.body m = .ok b) :
    g.Underway (done ++ [m]) (queue ++ g.callees b) := by
  have horder := h.concat_isPrefix hm
  obtain ⟨taken, hstream, hdone⟩ := h.stream
  refine ⟨⟨taken ++ [m], ?_, ?_⟩, horder, ?_⟩
  · rw [List.flatMap_append, ← List.append_assoc, hstream, List.flatMap_singleton, calls_eq hb]
    simp only [List.append_assoc, List.cons_append, List.nil_append]
  · rw [hdone, List.mem_eraseDups] at hm
    rw [eraseDups_concat_of_not_mem hm, hdone]
  · exact List.forall_mem_append.mpr ⟨h.imported, List.forall_mem_singleton.mpr ⟨b, hb⟩⟩

theorem Underway.eq_breadthFirst (h : g.Underway done []) : done = g.breadthFirst := by
  obtain ⟨taken, hstream, hdone⟩ := h.stream
  rw [List.append_nil] at hstream
  rw [← hstream, ← metFrom] at hdone
  have hnearest (n : Nat) : g.nearest n <+: done := by
    induction n with
    | zero => exact List.nil_prefix
    | succ n ih =>
      rw [hdone]
      exact metFrom_isPrefix ih
  exact h.order.eq_of_length_le (hnearest g.names.length).length_le

theorem size_eq_length (hseen : ∀ x, x ∈ seen ↔ x ∈ done) (hdone : done.Nodup) : seen.size = done.length :=
  ((List.perm_ext_iff_of_nodup seen.nodup_toList hdone).mpr hseen).length_eq

theorem Walks.importedInOrder (h : g.Walks seen queue imports outcome) (hseen : ∀ x, x ∈ seen ↔ x ∈ done)
    (hdone : g.Underway done queue) : g.ImportedInOrder (done ++ imports) (outcome.map (·.size)) := by
  induction h generalizing done with
  | done =>
    have hall := hdone.eq_breadthFirst
    subst hall
    rw [List.append_nil, Except.map, size_eq_length hseen (nearest_nodup _)]
    exact .all hdone.imported
  | skip hm _ ih => exact ih hseen (hdone.skip ((hseen _).mp hm))
  | @visit seen m b queue imports outcome hm hb _ ih =>
    have hnew : ¬ m ∈ done := fun h => hm ((hseen m).mpr h)
    have hmore : ∀ x, x ∈ seen.insert m ↔ x ∈ done ++ [m] := by
      intro x
      rw [OrderedSet.mem_insert, hseen, List.mem_append, List.mem_singleton, or_comm]
    rw [← List.singleton_append, ← List.append_assoc]
    exact ih hmore (hdone.visit hnew hb)
  | @stop seen m e queue hm hb =>
    obtain ⟨after, horder⟩ := hdone.concat_isPrefix (fun h => hm ((hseen m).mpr h))
    rw [List.append_assoc, List.singleton_append] at horder
    exact .upTo horder.symm hdone.imported hb

theorem ImportedInOrder.eq_ok_iff {result : Except CodegenFailure Nat} (h : g.ImportedInOrder imports result) :
    result = .ok g.breadthFirst.length ↔ ∀ m ∈ g.breadthFirst, ∃ b, g.body m = .ok b := by
  cases h with
  | all imported => exact iff_of_true rfl imported
  | @upTo before after m e order imported fails =>
    refine iff_of_false nofun (fun hall => ?_)
    obtain ⟨b, hb⟩ := hall m (order ▸ List.mem_append_right _ (List.mem_cons_self ..))
    rw [fails] at hb
    cases hb

theorem walk_in_order (g : ProgramGraph) :
    (g.Closed {m | m ∈ g.breadthFirst} Set.univ (g.listed {m | m ∈ g.breadthFirst} (·.virtualCalls)) ∧
      ∀ M S, g.Closed M Set.univ S → {m | m ∈ g.breadthFirst} ⊆ M) ∧
    g.breadthFirst.Nodup ∧ (∀ n, g.nearest n <+: g.breadthFirst) ∧
    (g.importReachable none = .ok g.breadthFirst.length ↔ ∀ m ∈ g.breadthFirst, ∃ b, g.body m = .ok b) ∧
    ∃ imports, (∀ asked outcome, g.Walks ∅ g.roots asked outcome ↔ asked = imports ∧ outcome = g.visited) ∧
      g.ImportedInOrder imports (g.importReachable none) := by
  obtain ⟨imports, hwalks⟩ := walks_walk (g := g) walking_start (outside_card_le ∅)
  have hnone (x : String) : x ∈ (∅ : OrderedSet String) ↔ x ∈ [] :=
    iff_of_false (OrderedSet.not_mem_empty x) List.not_mem_nil
  have horder : g.ImportedInOrder imports (g.importReachable none) := hwalks.importedInOrder hnone underway_start
  refine ⟨⟨breadthFirst_closed, fun _ _ => breadthFirst_least⟩, nearest_nodup _, nearest_isPrefix_breadthFirst,
    horder.eq_ok_iff, imports, ?_, horder⟩
  intro asked outcome
  constructor
  · exact fun h => h.unique hwalks
  · rintro ⟨rfl, rfl⟩
    exact hwalks

end ProgramGraph

example : ProgramDocument.gallery.graph.breadthFirst = ["main", "draw", "circle.area", "square.area"] := by
  decide +kernel

end NativeBuild
