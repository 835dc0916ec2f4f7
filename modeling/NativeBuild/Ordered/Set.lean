namespace NativeBuild

universe u

structure OrderedSet (κ : Type u) [Ord κ] where
  toList : List κ
  increasing : toList.Pairwise (fun a b => compare a b = .lt)

namespace OrderedSet

variable {κ : Type u} [Ord κ]

instance [DecidableEq κ] : DecidableEq (OrderedSet κ) := fun s t =>
  if h : s.toList = t.toList then isTrue (by cases s; cases t; simp_all)
  else isFalse (fun e => h (e ▸ rfl))

instance [Repr κ] : Repr (OrderedSet κ) := ⟨fun s n => reprPrec s.toList n⟩

instance : Membership κ (OrderedSet κ) := ⟨fun s k => k ∈ s.toList⟩

instance [DecidableEq κ] (s : OrderedSet κ) (k : κ) : Decidable (k ∈ s) :=
  inferInstanceAs (Decidable (k ∈ s.toList))

theorem mem_toList {s : OrderedSet κ} {k : κ} : k ∈ s.toList ↔ k ∈ s := Iff.rfl

def empty : OrderedSet κ := ⟨[], .nil⟩

instance : EmptyCollection (OrderedSet κ) := ⟨empty⟩

instance : Inhabited (OrderedSet κ) := ⟨empty⟩

@[simp] theorem not_mem_empty (k : κ) : ¬ k ∈ (∅ : OrderedSet κ) := List.not_mem_nil

def isEmpty (s : OrderedSet κ) : Bool := s.toList.isEmpty

def size (s : OrderedSet κ) : Nat := s.toList.length

def place (k : κ) : List κ → List κ
  | [] => [k]
  | x :: xs =>
    match compare k x with
    | .lt => k :: x :: xs
    | .eq => x :: xs
    | .gt => x :: place k xs

section
variable [Std.LawfulEqOrd κ]

theorem mem_place {k a : κ} {xs : List κ} : a ∈ place k xs ↔ a = k ∨ a ∈ xs := by
  induction xs with
  | nil => simp [place]
  | cons x xs ih =>
    rw [place]
    split
    · simp
    · next h => have := Std.LawfulEqOrd.eq_of_compare h; simp [this]
    · simp only [List.mem_cons, ih]
      constructor
      · rintro (h | h | h) <;> simp [h]
      · rintro (h | h | h) <;> simp [h]

variable [Std.TransOrd κ]

theorem place_increasing {k : κ} {xs : List κ} (h : xs.Pairwise (fun a b => compare a b = .lt)) :
    (place k xs).Pairwise (fun a b => compare a b = .lt) := by
  induction xs with
  | nil => simp [place]
  | cons x xs ih =>
    have hx := List.pairwise_cons.1 h
    rw [place]
    split
    · next hk =>
      refine List.pairwise_cons.2 ⟨?_, h⟩
      intro a ha
      rcases List.mem_cons.1 ha with rfl | ha
      · exact hk
      · exact Std.TransCmp.lt_trans hk (hx.1 a ha)
    · exact h
    · next hk =>
      refine List.pairwise_cons.2 ⟨?_, ih hx.2⟩
      intro a ha
      rcases mem_place.1 ha with rfl | ha
      · exact Std.OrientedCmp.lt_of_gt hk
      · exact hx.1 a ha

def insert (s : OrderedSet κ) (k : κ) : OrderedSet κ :=
  ⟨place k s.toList, place_increasing s.increasing⟩

@[simp] theorem mem_insert {s : OrderedSet κ} {k a : κ} : a ∈ s.insert k ↔ a = k ∨ a ∈ s := mem_place

def insertAll (s : OrderedSet κ) (ks : List κ) : OrderedSet κ := ks.foldl insert s

@[simp] theorem mem_insertAll {ks : List κ} {s : OrderedSet κ} {a : κ} :
    a ∈ s.insertAll ks ↔ a ∈ ks ∨ a ∈ s := by
  induction ks generalizing s with
  | nil => simp [insertAll]
  | cons k ks ih =>
    rw [show s.insertAll (k :: ks) = (s.insert k).insertAll ks from rfl, ih, mem_insert, List.mem_cons]
    constructor
    · rintro (h | h | h) <;> simp [h]
    · rintro ((h | h) | h) <;> simp [h]

def ofList (ks : List κ) : OrderedSet κ := (∅ : OrderedSet κ).insertAll ks

@[simp] theorem mem_ofList {ks : List κ} {a : κ} : a ∈ ofList ks ↔ a ∈ ks := by simp [ofList]

def union (s t : OrderedSet κ) : OrderedSet κ := s.insertAll t.toList

@[simp] theorem mem_union {s t : OrderedSet κ} {a : κ} : a ∈ s.union t ↔ a ∈ s ∨ a ∈ t := by
  rw [union, mem_insertAll, mem_toList, or_comm]

end

def filter (p : κ → Bool) (s : OrderedSet κ) : OrderedSet κ :=
  ⟨s.toList.filter p, s.increasing.filter p⟩

@[simp] theorem mem_filter {p : κ → Bool} {s : OrderedSet κ} {a : κ} :
    a ∈ s.filter p ↔ a ∈ s ∧ p a := List.mem_filter

def diff [DecidableEq κ] (s t : OrderedSet κ) : OrderedSet κ := s.filter (fun k => !decide (k ∈ t))

@[simp] theorem mem_diff [DecidableEq κ] {s t : OrderedSet κ} {a : κ} :
    a ∈ s.diff t ↔ a ∈ s ∧ ¬ a ∈ t := by simp [diff]

theorem nodup_toList [Std.LawfulEqOrd κ] (s : OrderedSet κ) : s.toList.Nodup :=
  s.increasing.imp (fun h e => by subst e; simp at h)

theorem increasing_unique [Std.TransOrd κ] [Std.LawfulEqOrd κ] {xs ys : List κ}
    (hx : xs.Pairwise (fun a b => compare a b = .lt)) (hy : ys.Pairwise (fun a b => compare a b = .lt))
    (h : ∀ a, a ∈ xs ↔ a ∈ ys) : xs = ys := by
  induction xs generalizing ys with
  | nil =>
    cases ys with
    | nil => rfl
    | cons y ys => exact absurd ((h y).2 (by simp)) (by simp)
  | cons x xs ih =>
    cases ys with
    | nil => exact absurd ((h x).1 (by simp)) (by simp)
    | cons y ys =>
      have hx' := List.pairwise_cons.1 hx
      have hy' := List.pairwise_cons.1 hy
      have hxy : x = y := by
        rcases List.mem_cons.1 ((h x).1 (by simp)) with e | e
        · exact e
        · rcases List.mem_cons.1 ((h y).2 (by simp)) with e' | e'
          · exact e'.symm
          · have h1 := hy'.1 x e
            have h2 := hx'.1 y e'
            have h3 := Std.TransCmp.lt_trans h1 h2
            simp at h3
      subst hxy
      congr 1
      refine ih hx'.2 hy'.2 (fun a => ?_)
      constructor
      · intro ha
        rcases List.mem_cons.1 ((h a).1 (List.mem_cons_of_mem _ ha)) with e | e
        · subst e; have := hx'.1 a ha; simp at this
        · exact e
      · intro ha
        rcases List.mem_cons.1 ((h a).2 (List.mem_cons_of_mem _ ha)) with e | e
        · subst e; have := hy'.1 a ha; simp at this
        · exact e

theorem ext [Std.TransOrd κ] [Std.LawfulEqOrd κ] {s t : OrderedSet κ} (h : ∀ a, a ∈ s ↔ a ∈ t) : s = t := by
  have := increasing_unique s.increasing t.increasing h
  cases s; cases t; simp_all

theorem toList_eq_singleton_iff [Std.TransOrd κ] [Std.LawfulEqOrd κ] {s : OrderedSet κ} {a : κ} :
    s.toList = [a] ↔ ∀ x, x ∈ s ↔ x = a := by
  constructor
  · intro h x
    rw [← mem_toList, h, List.mem_singleton]
  · intro h
    apply increasing_unique s.increasing (List.pairwise_singleton _ a)
    intro x
    rw [mem_toList, h, List.mem_singleton]

end OrderedSet

end NativeBuild
