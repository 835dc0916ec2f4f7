namespace NativeBuild

universe u v w

structure OrderedMap (κ : Type u) [Ord κ] (β : Type v) where
  toList : List (κ × β)
  increasing : toList.Pairwise (fun a b => compare a.1 b.1 = .lt)

namespace OrderedMap

variable {κ : Type u} [Ord κ] {β : Type v} {γ : Type w}

instance [DecidableEq κ] [DecidableEq β] : DecidableEq (OrderedMap κ β) := fun m n =>
  if h : m.toList = n.toList then isTrue (by cases m; cases n; simp_all)
  else isFalse (fun e => h (e ▸ rfl))

instance [Repr κ] [Repr β] : Repr (OrderedMap κ β) := ⟨fun m _ => repr m.toList⟩

def empty : OrderedMap κ β := ⟨[], .nil⟩

instance : EmptyCollection (OrderedMap κ β) := ⟨empty⟩

instance : Inhabited (OrderedMap κ β) := ⟨empty⟩

def isEmpty (m : OrderedMap κ β) : Bool := m.toList.isEmpty

def keys (m : OrderedMap κ β) : List κ := m.toList.map (·.1)

def values (m : OrderedMap κ β) : List β := m.toList.map (·.2)

def seek [DecidableEq κ] (k : κ) : List (κ × β) → Option β
  | [] => none
  | e :: es => if e.1 = k then some e.2 else seek k es

def get? [DecidableEq κ] (m : OrderedMap κ β) (k : κ) : Option β := seek k m.toList

def contains [DecidableEq κ] (m : OrderedMap κ β) (k : κ) : Bool := (m.get? k).isSome

section
variable [DecidableEq κ]

omit [Ord κ] in
theorem seek_append {k : κ} {es fs : List (κ × β)} : seek k (es ++ fs) = (seek k es).or (seek k fs) := by
  induction es with
  | nil => rfl
  | cons e es ih => by_cases h : e.1 = k <;> simp [seek, h, ih]

omit [Ord κ] in
theorem exists_seek_of_mem {es : List (κ × β)} {k : κ} {v : β} (h : (k, v) ∈ es) : ∃ w, seek k es = some w := by
  induction es with
  | nil => simp at h
  | cons e es ih =>
    by_cases he : e.1 = k
    · exact ⟨e.2, by simp [seek, he]⟩
    · rcases List.mem_cons.1 h with rfl | h
      · exact absurd rfl he
      · simpa [seek, he] using ih h

omit [Ord κ] in
theorem mem_of_seek_eq_some {es : List (κ × β)} {k : κ} {v : β} (h : seek k es = some v) : (k, v) ∈ es := by
  induction es with
  | nil => simp [seek] at h
  | cons x xs ih =>
    rw [seek] at h
    split at h
    · next q => obtain ⟨a, b⟩ := x; simp_all
    · exact List.mem_cons_of_mem _ (ih h)

end

def place (k : κ) (v : β) : List (κ × β) → List (κ × β)
  | [] => [(k, v)]
  | e :: es =>
    match compare k e.1 with
    | .lt => (k, v) :: e :: es
    | .eq => (k, v) :: es
    | .gt => e :: place k v es

theorem key_of_mem_place {k : κ} {v : β} {es : List (κ × β)} {e : κ × β} (h : e ∈ place k v es) :
    e.1 = k ∨ e ∈ es := by
  induction es with
  | nil => simp_all [place]
  | cons x xs ih =>
    rw [place] at h
    split at h
    · rcases List.mem_cons.1 h with rfl | h <;> simp_all
    · rcases List.mem_cons.1 h with rfl | h <;> simp_all
    · rcases List.mem_cons.1 h with rfl | h
      · simp
      · rcases ih h with h | h <;> simp [h]

section
variable [Std.TransOrd κ] [Std.LawfulEqOrd κ]

theorem place_increasing {k : κ} {v : β} {es : List (κ × β)}
    (h : es.Pairwise (fun a b => compare a.1 b.1 = .lt)) :
    (place k v es).Pairwise (fun a b => compare a.1 b.1 = .lt) := by
  induction es with
  | nil => simp [place]
  | cons x xs ih =>
    have hx := List.pairwise_cons.1 h
    rw [place]
    split
    · next hk =>
      refine List.pairwise_cons.2 ⟨?_, h⟩
      intro a ha
      rcases List.mem_cons.1 ha with rfl | ha
      · exact hk
      · exact Std.TransCmp.lt_trans hk (hx.1 a ha)
    · next hk =>
      have e := Std.LawfulEqOrd.eq_of_compare hk
      exact List.pairwise_cons.2 ⟨fun a ha => by simpa [e] using hx.1 a ha, hx.2⟩
    · next hk =>
      refine List.pairwise_cons.2 ⟨?_, ih hx.2⟩
      intro a ha
      rcases key_of_mem_place ha with e | ha
      · rw [e]; exact Std.OrientedCmp.lt_of_gt hk
      · exact hx.1 a ha

def insert (m : OrderedMap κ β) (k : κ) (v : β) : OrderedMap κ β :=
  ⟨place k v m.toList, place_increasing m.increasing⟩

def insertAll (m : OrderedMap κ β) (es : List (κ × β)) : OrderedMap κ β :=
  es.foldl (fun m e => m.insert e.1 e.2) m

def ofList (es : List (κ × β)) : OrderedMap κ β := (∅ : OrderedMap κ β).insertAll es

variable [DecidableEq κ]

omit [Std.TransOrd κ] in
theorem seek_place {k a : κ} {v : β} {es : List (κ × β)} :
    seek a (place k v es) = if k = a then some v else seek a es := by
  induction es with
  | nil => simp [place, seek]
  | cons x xs ih =>
    rw [place]
    split
    · simp [seek]
    · next hk =>
      have e := Std.LawfulEqOrd.eq_of_compare hk
      by_cases h : k = a <;> simp_all [seek]
    · next hk =>
      have hne : k ≠ x.1 := by rintro rfl; simp at hk
      by_cases hx : x.1 = a
      · have : ¬ k = a := by rw [← hx]; exact hne
        simp [seek, hx, this]
      · simp [seek, hx, ih]

@[simp] theorem get?_insert {m : OrderedMap κ β} {k a : κ} {v : β} :
    (m.insert k v).get? a = if k = a then some v else m.get? a := seek_place

theorem get?_insertAll {m : OrderedMap κ β} {es : List (κ × β)} {k : κ} :
    (m.insertAll es).get? k = (seek k es.reverse).or (m.get? k) := by
  induction es generalizing m with
  | nil => simp [insertAll, seek]
  | cons e es ih =>
    rw [show m.insertAll (e :: es) = (m.insert e.1 e.2).insertAll es from rfl, ih, get?_insert,
      List.reverse_cons, seek_append, Option.or_assoc]
    congr 1
    by_cases h : e.1 = k <;> simp [seek, h]

theorem get?_ofList {es : List (κ × β)} {k : κ} : (ofList es).get? k = seek k es.reverse := by
  rw [ofList, get?_insertAll, show (∅ : OrderedMap κ β).get? k = none from rfl, Option.or_none]

theorem get?_ofList_eq_some_iff {es : List (κ × β)} {k : κ} {v : β}
    (h : ∀ e ∈ es, ∀ e' ∈ es, e.1 = e'.1 → e.2 = e'.2) :
    (ofList es).get? k = some v ↔ (k, v) ∈ es := by
  rw [get?_ofList]
  constructor
  · intro hs
    exact List.mem_reverse.1 (mem_of_seek_eq_some hs)
  · intro hv
    obtain ⟨w, hw⟩ := exists_seek_of_mem (List.mem_reverse.2 hv)
    have hw' : (k, w) ∈ es := List.mem_reverse.1 (mem_of_seek_eq_some hw)
    have hwv : w = v := h _ hw' _ hv rfl
    rw [hw, hwv]

def insertIfNew (m : OrderedMap κ β) (k : κ) (v : β) : OrderedMap κ β :=
  if m.contains k then m else m.insert k v

theorem get?_insertIfNew {m : OrderedMap κ β} {k a : κ} {v : β} :
    (m.insertIfNew k v).get? a = if k = a then (m.get? a).or (some v) else m.get? a := by
  unfold insertIfNew contains
  by_cases h : k = a
  · subst h; cases hk : m.get? k <;> simp [hk]
  · cases hk : m.get? k <;> simp [h]

end

section
variable [DecidableEq κ]

@[simp] theorem get?_empty {a : κ} : (∅ : OrderedMap κ β).get? a = none := rfl

theorem seek_eq_some_of_mem {es : List (κ × β)} [Std.LawfulEqOrd κ]
    (h : es.Pairwise (fun a b => compare a.1 b.1 = .lt)) {e : κ × β} (he : e ∈ es) :
    seek e.1 es = some e.2 := by
  induction es with
  | nil => simp at he
  | cons x xs ih =>
    have hx := List.pairwise_cons.1 h
    rcases List.mem_cons.1 he with rfl | he
    · simp [seek]
    · have hne : ¬ x.1 = e.1 := fun q => by have := hx.1 e he; rw [q] at this; simp at this
      simp [seek, hne, ih hx.2 he]

theorem mem_values_of_get? {m : OrderedMap κ β} {k : κ} {v : β} (h : m.get? k = some v) : v ∈ m.values :=
  List.mem_map.2 ⟨(k, v), mem_of_seek_eq_some h, rfl⟩

theorem mem_toList_iff [Std.LawfulEqOrd κ] {m : OrderedMap κ β} {k : κ} {v : β} :
    (k, v) ∈ m.toList ↔ m.get? k = some v :=
  ⟨fun h => seek_eq_some_of_mem m.increasing h, mem_of_seek_eq_some⟩

theorem mem_keys_iff [Std.LawfulEqOrd κ] {m : OrderedMap κ β} {k : κ} : k ∈ m.keys ↔ (m.get? k).isSome := by
  simp only [keys, List.mem_map, Option.isSome_iff_exists, ← mem_toList_iff]
  constructor
  · rintro ⟨⟨a, b⟩, h, rfl⟩; exact ⟨b, h⟩
  · rintro ⟨b, h⟩; exact ⟨(k, b), h, rfl⟩

end

def filter (p : κ → β → Bool) (m : OrderedMap κ β) : OrderedMap κ β :=
  ⟨m.toList.filter (fun e => p e.1 e.2), m.increasing.filter _⟩

theorem get?_filter_eq_some_iff [DecidableEq κ] [Std.LawfulEqOrd κ] {p : κ → β → Bool} {m : OrderedMap κ β} {k : κ}
    {v : β} : (m.filter p).get? k = some v ↔ m.get? k = some v ∧ p k v := by
  rw [← mem_toList_iff, ← mem_toList_iff]
  exact List.mem_filter

theorem get?_filter_key [DecidableEq κ] {p : κ → Bool} {m : OrderedMap κ β} {a : κ} :
    (m.filter (fun k _ => p k)).get? a = if p a then m.get? a else none := by
  obtain ⟨es, h⟩ := m
  simp only [get?, filter]
  clear h
  induction es with
  | nil => simp [seek]
  | cons x xs ih =>
    by_cases hx : p x.1
    · rw [List.filter_cons_of_pos (by simpa using hx)]
      by_cases ha : x.1 = a
      · subst ha; simp [seek, hx]
      · simp [seek, ha, ih]
    · rw [List.filter_cons_of_neg (by simpa using hx), ih]
      by_cases ha : x.1 = a
      · subst ha; simp [hx]
      · simp [seek, ha]

def erase [DecidableEq κ] (m : OrderedMap κ β) (k : κ) : OrderedMap κ β :=
  m.filter (fun a _ => !decide (a = k))

@[simp] theorem get?_erase [DecidableEq κ] {m : OrderedMap κ β} {k a : κ} :
    (m.erase k).get? a = if k = a then none else m.get? a := by
  obtain ⟨es, h⟩ := m
  simp only [get?, erase, filter]
  clear h
  induction es with
  | nil => simp [seek]
  | cons x xs ih =>
    by_cases hx : x.1 = k
    · by_cases ha : k = a
      · simp_all
      · have : ¬ x.1 = a := by rw [hx]; exact ha
        simp_all [seek]
    · by_cases ha : x.1 = a
      · have : ¬ k = a := by rintro rfl; exact hx ha
        rw [List.filter_cons_of_pos (by simp [hx])]
        simp [seek, ha, this]
      · rw [List.filter_cons_of_pos (by simp [hx])]
        simp [seek, ha, ih]

def map (f : κ → β → γ) (m : OrderedMap κ β) : OrderedMap κ γ :=
  ⟨m.toList.map (fun e => (e.1, f e.1 e.2)), List.Pairwise.map _ (fun _ _ h => h) m.increasing⟩

@[simp] theorem get?_map [DecidableEq κ] {f : κ → β → γ} {m : OrderedMap κ β} {a : κ} :
    (m.map f).get? a = (m.get? a).map (f a) := by
  obtain ⟨es, h⟩ := m
  simp only [get?, map]
  clear h
  induction es with
  | nil => rfl
  | cons x xs ih =>
    by_cases hx : x.1 = a
    · subst hx; simp [seek]
    · simp [seek, hx, ih]

theorem ext [DecidableEq κ] [Std.TransOrd κ] [Std.LawfulEqOrd κ] {m n : OrderedMap κ β}
    (h : ∀ k, m.get? k = n.get? k) : m = n := by
  have nodup : ∀ p : OrderedMap κ β, p.toList.Nodup := fun p =>
    p.increasing.imp (fun h e => by subst e; simp at h)
  have hp : m.toList.Perm n.toList := (List.perm_ext_iff_of_nodup (nodup m) (nodup n)).2 (fun e => by
    rw [show e = (e.1, e.2) from rfl, mem_toList_iff, mem_toList_iff, h])
  have antisymm : ∀ a b : κ × β, a ∈ m.toList → b ∈ n.toList →
      compare a.1 b.1 = .lt → compare b.1 a.1 = .lt → a = b :=
    fun a b _ _ hab hba => by have := Std.TransCmp.lt_trans hab hba; simp at this
  have := List.Perm.eq_of_pairwise antisymm m.increasing n.increasing hp
  cases m; cases n; simp_all

end OrderedMap

end NativeBuild
