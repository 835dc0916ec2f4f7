import NativeBuild.Ordered.Set
import NativeBuild.Ordered.Map

namespace NativeBuild

universe u v

namespace OrderedMap

variable {κ : Type u} [Ord κ] [Std.TransOrd κ] [Std.LawfulEqOrd κ] [DecidableEq κ]
variable {α : Type v} [Ord α] [Std.TransOrd α] [Std.LawfulEqOrd α]

def members (m : OrderedMap κ (OrderedSet α)) (k : κ) : OrderedSet α := (m.get? k).getD ∅

def add (m : OrderedMap κ (OrderedSet α)) (e : κ × α) : OrderedMap κ (OrderedSet α) :=
  m.insert e.1 ((m.members e.1).insert e.2)

def addAll (m : OrderedMap κ (OrderedSet α)) (es : List (κ × α)) : OrderedMap κ (OrderedSet α) :=
  es.foldl add m

theorem members_add {m : OrderedMap κ (OrderedSet α)} {e : κ × α} {k : κ} {a : α} :
    a ∈ (m.add e).members k ↔ (k, a) = e ∨ a ∈ m.members k := by
  obtain ⟨k', a'⟩ := e
  simp only [members, add, get?_insert, Prod.mk.injEq]
  by_cases h : k' = k
  · subst h; simp
  · simp [h, Ne.symm h]

theorem mem_members_addAll {m : OrderedMap κ (OrderedSet α)} {es : List (κ × α)} {k : κ} {a : α} :
    a ∈ (m.addAll es).members k ↔ (k, a) ∈ es ∨ a ∈ m.members k := by
  induction es generalizing m with
  | nil => simp [addAll]
  | cons e es ih =>
    rw [show m.addAll (e :: es) = (m.add e).addAll es from rfl, ih, members_add, List.mem_cons]
    constructor
    · rintro (h | h | h) <;> simp [h]
    · rintro ((h | h) | h) <;> simp [h]

theorem exists_mem_of_get?_addAll {m : OrderedMap κ (OrderedSet α)} (hm : ∀ k X, m.get? k = some X → ∃ a, a ∈ X)
    (es : List (κ × α)) : ∀ k X, (m.addAll es).get? k = some X → ∃ a, a ∈ X := by
  induction es generalizing m with
  | nil => exact hm
  | cons e es ih =>
    apply ih (m := m.add e)
    intro k X hX
    rw [add, get?_insert] at hX
    split at hX
    · exact ⟨e.2, Option.some.inj hX ▸ OrderedSet.mem_insert.mpr (.inl rfl)⟩
    · exact hm k X hX

theorem get?_addAll_eq_some_iff {es : List (κ × α)} {k : κ} {X : OrderedSet α} :
    ((∅ : OrderedMap κ (OrderedSet α)).addAll es).get? k = some X ↔
      (∃ a, a ∈ X) ∧ ∀ a, a ∈ X ↔ (k, a) ∈ es := by
  have hmem (a : α) : a ∈ ((∅ : OrderedMap κ (OrderedSet α)).addAll es).members k ↔ (k, a) ∈ es := by
    rw [mem_members_addAll, or_iff_left]
    exact OrderedSet.not_mem_empty a
  rw [members] at hmem
  cases hk : ((∅ : OrderedMap κ (OrderedSet α)).addAll es).get? k with
  | none =>
    simp only [hk, Option.getD_none] at hmem
    constructor
    · nofun
    · rintro ⟨⟨a, ha⟩, hX⟩
      exact absurd ((hmem a).mpr ((hX a).mp ha)) (OrderedSet.not_mem_empty a)
  | some Y =>
    simp only [hk, Option.getD_some] at hmem
    constructor
    · intro hY
      obtain rfl := Option.some.inj hY
      exact ⟨exists_mem_of_get?_addAll (by simp) es k Y hk, hmem⟩
    · rintro ⟨-, hX⟩
      exact congrArg some (OrderedSet.ext (fun a => (hmem a).trans (hX a).symm))

theorem get?_addAll_map {m : OrderedMap κ (OrderedSet α)} {k a : κ} {xs : List α} :
    (m.addAll (xs.map (k, ·))).get? a =
      if k = a ∧ xs ≠ [] then some ((m.members k).insertAll xs) else m.get? a := by
  induction xs generalizing m with
  | nil => simp [addAll]
  | cons x xs ih =>
    rw [List.map_cons, show m.addAll ((k, x) :: xs.map (k, ·)) = (m.add (k, x)).addAll (xs.map (k, ·)) from rfl, ih]
    by_cases h : k = a
    · subst h
      cases xs <;> simp [add, members, OrderedSet.insertAll]
    · simp [add, h]

end OrderedMap

end NativeBuild
