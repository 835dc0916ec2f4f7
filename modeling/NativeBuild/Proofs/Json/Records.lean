import Mathlib.Data.List.Count
import Mathlib.Data.List.Forall2
import NativeBuild.Json.Record

namespace NativeBuild.JsonValue

universe u

variable {α β : Type u} {as : List α} {bs : List β} {a : α} {v x : JsonValue} {vs : List JsonValue}
  {names : List String} {name : String} {fields : List (String × Option JsonValue)}
  {es : List (String × JsonValue)} {items : List (Option JsonValue)}

theorem mapM_eq_some_iff {f : α → Option β} : as.mapM f = some bs ↔ as.map f = bs.map some := by
  induction as generalizing bs with
  | nil =>
    cases bs with
    | nil => simp
    | cons b bs => simp
  | cons a as ih =>
    rw [List.mapM_cons]
    cases bs with
    | nil => simp [Option.bind_eq_some_iff]
    | cons b bs => simp [Option.bind_eq_some_iff, ← ih]

theorem mapM_eq_none {f : α → Option β} (ha : a ∈ as) (h : f a = none) : as.mapM f = none := by
  apply Option.eq_none_iff_forall_ne_some.mpr
  intro bs hbs
  have hmem : f a ∈ bs.map some := mapM_eq_some_iff.mp hbs ▸ List.mem_map_of_mem ha
  obtain ⟨b, -, hb⟩ := List.mem_map.mp hmem
  rw [h] at hb
  cases hb

theorem mapM_eq_some_of_forall₂ {f : α → Option β} {R : β → α → Prop} (hf : ∀ b a, R b a → f a = some b)
    (h : List.Forall₂ R bs as) : as.mapM f = some bs := by
  rw [mapM_eq_some_iff]
  induction h with
  | nil => rfl
  | cons hr _ ih => rw [List.map_cons, List.map_cons, hf _ _ hr, ih]

def given (fields : List (String × Option JsonValue)) : List (String × JsonValue) :=
  fields.filterMap (fun f => f.2.map (f.1, ·))

/-- A record: an object of its fields and of others, in any order, or an array of its fields in their order. A field
without a value is left out. -/
inductive Record (fields : List (String × Option JsonValue)) : JsonValue → Prop
  | object {es others : List (String × JsonValue)} (hothers : ∀ e ∈ others, e.1 ∉ fields.map (·.1))
      (h : es.Perm (given fields ++ others)) : Record fields (.ofFields es)
  | array {vs : List JsonValue} {missing : Nat} (h : fields.map (·.2) = vs.map some ++ List.replicate missing none) :
      Record fields (.array vs)

theorem Record.plain : Record fields (.ofFields (given fields)) := by
  have hperm : (given fields).Perm (given fields ++ []) := by rw [List.append_nil]
  exact .object (List.forall_mem_nil _) hperm

def Omittable {α : Type} [Inhabited α] (P : α → JsonValue → Prop) (x : α) : Option JsonValue → Prop
  | none => x = default
  | some v => P x v

def Sequence {α : Type} (P : α → JsonValue → Prop) (xs : List α) (v : JsonValue) : Prop :=
  ∃ vs, v = .array vs ∧ List.Forall₂ P xs vs

def IsText (s : String) (v : JsonValue) : Prop := v = .ofText s

def Table {α : Type} (P : α → JsonValue → Prop) (m : OrderedMap String α) (v : JsonValue) : Prop :=
  ∃ (es : List (String × JsonValue)) (entries : List (String × α)), v = .ofFields es ∧
    List.Forall₂ (fun entry e => entry.1 = e.1 ∧ P entry.2 e.2) entries es ∧
      ∀ k x, m.get? k = some x ↔ ∃ before after, entries = before ++ (k, x) :: after ∧ ∀ e ∈ after, e.1 ≠ k

inductive Holds (names : List String) (name : String) : JsonValue → JsonValue → Prop
  | object {es : List (Option String × JsonValue)} {x : JsonValue} (h : (some name, x) ∈ es) :
      Holds names name (.object es) x
  | array {vs : List JsonValue} {x : JsonValue} (h : vs[names.idxOf name]? = some x) : Holds names name (.array vs) x

def Repeats (names : List String) (v : JsonValue) : Prop :=
  ∃ es, v = .object es ∧ ∃ name ∈ names, 2 ≤ (es.map (·.1)).count (some name)

theorem namedFields_ofFields : namedFields (es.map (fun e => (some e.1, e.2))) = some es := by
  rw [namedFields, mapM_eq_some_iff, List.map_map]
  rfl

theorem eq_of_namedFields {fs : List (Option String × JsonValue)} (h : namedFields fs = some es) :
    fs = es.map (fun e => (some e.1, e.2)) := by
  induction fs generalizing es with
  | nil =>
    obtain rfl := Option.some.inj h
    rfl
  | cons f fs ih =>
    simp only [namedFields, List.mapM_cons, Option.bind_eq_bind, Option.bind_eq_some_iff, Option.map_eq_some_iff,
      Option.pure_def, Option.some.injEq] at h
    obtain ⟨e, ⟨key, hkey, rfl⟩, es, hes, rfl⟩ := h
    rw [List.map_cons, ← ih hes, ← hkey]

theorem given_cons (f : String × Option JsonValue) (fields : List (String × Option JsonValue)) :
    given (f :: fields) = (f.2.map (f.1, ·)).toList ++ given fields := by
  rw [given, List.filterMap_cons]
  cases f.2 <;> rfl

theorem filter_given_of_not_mem (h : name ∉ fields.map (·.1)) :
    (given fields).filter (fun e => e.1 = name) = [] := by
  rw [List.filter_eq_nil_iff]
  intro e he
  obtain ⟨f, hf, he⟩ := List.mem_filterMap.mp he
  obtain ⟨x, -, rfl⟩ := Option.map_eq_some_iff.mp he
  have hne : f.1 ≠ name := fun heq => h (heq ▸ List.mem_map_of_mem hf)
  simpa using hne

theorem filter_given (hnames : (fields.map (·.1)).Nodup) {f : String × Option JsonValue} (hf : f ∈ fields) :
    (given fields).filter (fun e => e.1 = f.1) = (f.2.map (f.1, ·)).toList := by
  induction fields with
  | nil => cases hf
  | cons g fields ih =>
    obtain ⟨hg, hnames⟩ := List.nodup_cons.mp hnames
    rw [given_cons, List.filter_append]
    obtain rfl | hf := List.mem_cons.mp hf
    · rw [filter_given_of_not_mem hg, List.append_nil]
      cases f.2 <;> simp
    · have hne : g.1 ≠ f.1 := fun heq => hg (List.mem_map.mpr ⟨f, hf, heq.symm⟩)
      rw [ih hnames hf]
      cases g.2 <;> simp [hne]

theorem field?_of_perm {others : List (String × JsonValue)} (hnames : (fields.map (·.1)).Nodup)
    (hothers : ∀ e ∈ others, e.1 ∉ fields.map (·.1)) (h : es.Perm (given fields ++ others))
    {f : String × Option JsonValue} (hf : f ∈ fields) : field? es f.1 = some f.2 := by
  have hrest : others.filter (fun e => e.1 = f.1) = [] := by
    rw [List.filter_eq_nil_iff]
    intro e he heq
    exact hothers e he (decide_eq_true_eq.mp heq ▸ List.mem_map_of_mem hf)
  have hperm : (es.filter (fun e => e.1 = f.1)).Perm (f.2.map (f.1, ·)).toList := by
    have hfilter := h.filter (fun e => e.1 = f.1)
    rwa [List.filter_append, hrest, List.append_nil, filter_given hnames hf] at hfilter
  rw [field?]
  cases hx : f.2 with
  | none =>
    rw [hx] at hperm
    rw [List.perm_nil.mp hperm]
  | some x =>
    rw [hx] at hperm
    rw [List.perm_singleton.mp hperm]

theorem record?_of_record (h : Record fields v) (hfields : names = fields.map (·.1)) (hnames : names.Nodup) :
    record? names v = some (fields.map (·.2)) := by
  subst hfields
  cases h with
  | object hothers h =>
    rw [ofFields, record?, namedFields_ofFields, Option.bind_some, mapM_eq_some_iff, List.map_map, List.map_map]
    exact List.map_congr_left fun f hf => field?_of_perm hnames hothers h hf
  | @array vs missing h =>
    have hlength : fields.length = vs.length + missing := by
      have hlength := congrArg List.length h
      simpa using hlength
    rw [record?, List.length_map, if_pos (by omega), h]
    congr
    omega

def Reads {α : Type} (read : JsonValue → Option α) (P : α → JsonValue → Prop) : Prop :=
  ∀ x v, P x v → read v = some x

theorem reads_text? : Reads text? IsText := by
  rintro s _ rfl
  rfl

theorem Reads.list {α : Type} {read : JsonValue → Option α} {P : α → JsonValue → Prop} (h : Reads read P) :
    Reads (list? read) (Sequence P) := by
  rintro xs _ ⟨vs, rfl, hvs⟩
  exact mapM_eq_some_of_forall₂ h hvs

theorem Reads.orDefault {α : Type} [Inhabited α] {read : JsonValue → Option α} {P : α → JsonValue → Prop}
    (h : Reads read P) {x : α} {v : Option JsonValue} (hv : Omittable P x v) : orDefault read v = some x := by
  cases v with
  | none => exact congrArg some (Eq.symm hv)
  | some v => exact h x v hv

theorem seek_reverse_eq_none_iff {α : Type} {entries : List (String × α)} {k : String} :
    OrderedMap.seek k entries.reverse = none ↔ ∀ e ∈ entries, e.1 ≠ k := by
  rw [Option.eq_none_iff_forall_ne_some]
  constructor
  · rintro h ⟨_, x⟩ he rfl
    obtain ⟨y, hy⟩ := OrderedMap.exists_seek_of_mem (List.mem_reverse.mpr he)
    exact h y hy
  · intro h x hx
    exact h _ (List.mem_reverse.mp (OrderedMap.mem_of_seek_eq_some hx)) rfl

theorem seek_reverse_eq_some_iff {α : Type} {entries : List (String × α)} {k : String} {x : α} :
    OrderedMap.seek k entries.reverse = some x ↔
      ∃ before after, entries = before ++ (k, x) :: after ∧ ∀ e ∈ after, e.1 ≠ k := by
  constructor
  · intro h
    induction entries with
    | nil => cases h
    | cons e entries ih =>
      rw [List.reverse_cons, OrderedMap.seek_append] at h
      cases hlater : OrderedMap.seek k entries.reverse with
      | some y =>
        rw [hlater] at h
        obtain ⟨before, after, rfl, hafter⟩ := ih (hlater.trans h)
        exact ⟨e :: before, after, rfl, hafter⟩
      | none =>
        rw [hlater, Option.none_or, OrderedMap.seek] at h
        split at h
        · next he =>
          obtain ⟨_, _⟩ := e
          obtain rfl := Option.some.inj h
          obtain rfl := he
          exact ⟨[], entries, rfl, seek_reverse_eq_none_iff.mp hlater⟩
        · cases h
  · rintro ⟨before, after, rfl, hafter⟩
    rw [List.reverse_append, List.reverse_cons, OrderedMap.seek_append, OrderedMap.seek_append,
      seek_reverse_eq_none_iff.mpr hafter, Option.none_or, OrderedMap.seek, if_pos rfl, Option.some_or]

theorem table_ofList {α : Type} {P : α → JsonValue → Prop} {entries : List (String × α)}
    (h : List.Forall₂ (fun entry e => entry.1 = e.1 ∧ P entry.2 e.2) entries es) :
    Table P (OrderedMap.ofList entries) (.ofFields es) := by
  refine ⟨es, entries, rfl, h, fun k x => ?_⟩
  rw [OrderedMap.get?_ofList, seek_reverse_eq_some_iff]

theorem ofList_toList {α : Type} (m : OrderedMap String α) : OrderedMap.ofList m.toList = m := by
  have hkeys (e e' : String × α) (he : e ∈ m.toList) (he' : e' ∈ m.toList) (h : e.1 = e'.1) : e.2 = e'.2 := by
    have hseek := OrderedMap.seek_eq_some_of_mem m.increasing he
    rw [h, OrderedMap.seek_eq_some_of_mem m.increasing he'] at hseek
    exact (Option.some.inj hseek).symm
  apply OrderedMap.ext
  intro k
  apply Option.ext
  intro x
  rw [OrderedMap.get?_ofList_eq_some_iff fun e he e' he' => hkeys e e' he he', OrderedMap.mem_toList_iff]

theorem table_toList {α : Type} {P : α → JsonValue → Prop} {f : α → JsonValue} (h : ∀ x, P x (f x))
    (m : OrderedMap String α) : Table P m (.ofFields (m.toList.map (fun e => (e.1, f e.2)))) := by
  have hentries : List.Forall₂ (fun entry e => entry.1 = e.1 ∧ P entry.2 e.2) m.toList
      (m.toList.map (fun e => (e.1, f e.2))) :=
    List.forall₂_map_right_iff.mpr (List.forall₂_same.mpr fun e _ => ⟨rfl, h e.2⟩)
  have htable := table_ofList hentries
  rwa [ofList_toList] at htable

theorem isText_ofText (s : String) : IsText s (.ofText s) := rfl

theorem sequence_map {α : Type} {P : α → JsonValue → Prop} {f : α → JsonValue} (h : ∀ x, P x (f x)) (xs : List α) :
    Sequence P xs (.array (xs.map f)) :=
  ⟨_, rfl, List.forall₂_map_right_iff.mpr (List.forall₂_same.mpr fun x _ => h x)⟩

theorem Reads.table {α : Type} {read : JsonValue → Option α} {P : α → JsonValue → Prop} (h : Reads read P) :
    Reads (table? read) (Table P) := by
  rintro m _ ⟨es, entries, rfl, hentries, hm⟩
  have hkeyed : (es.map (fun e => (some e.1, e.2))).mapM (keyed? read) = some entries := by
    apply mapM_eq_some_of_forall₂ (R := fun entry e => e.1 = some entry.1 ∧ P entry.2 e.2)
    · rintro ⟨k, x⟩ ⟨_, v⟩ ⟨rfl, hx⟩
      simp [keyed?, h x v hx]
    · rw [List.forall₂_map_right_iff]
      exact hentries.imp fun entry e he => ⟨congrArg some he.1.symm, he.2⟩
  rw [ofFields, table?, hkeyed, Option.map_some]
  congr
  apply OrderedMap.ext
  intro k
  apply Option.ext
  intro x
  rw [OrderedMap.get?_ofList, seek_reverse_eq_some_iff, hm]

theorem field?_eq_none (h : 2 ≤ (es.map (·.1)).count name) : field? es name = none := by
  have hlength : 2 ≤ (es.filter (fun e => e.1 = name)).length := by
    rwa [List.count_eq_countP, List.countP_map, List.countP_eq_length_filter] at h
  rw [field?]
  split
  · next hnil => simp [hnil] at hlength
  · next hone => simp [hone] at hlength
  · rfl

theorem field?_eq_some_of_mem {y : Option JsonValue} (hx : (name, x) ∈ es) (h : field? es name = some y) :
    y = some x := by
  have hmem : (name, x) ∈ es.filter (fun e => e.1 = name) := List.mem_filter.mpr ⟨hx, decide_eq_true rfl⟩
  rw [field?] at h
  split at h
  · next hnil =>
    rw [hnil] at hmem
    cases hmem
  · next hone =>
    rw [hone, List.mem_singleton] at hmem
    rw [← hmem] at h
    exact (Option.some.inj h).symm
  · cases h

theorem Repeats.record?_eq_none (h : Repeats names v) : record? names v = none := by
  obtain ⟨fs, rfl, name, hname, hcount⟩ := h
  rw [record?]
  cases hnamed : namedFields fs with
  | none => rfl
  | some es =>
    obtain rfl := eq_of_namedFields hnamed
    rw [Option.bind_some]
    refine mapM_eq_none hname (field?_eq_none ?_)
    have hkeys : (es.map (fun e => (some e.1, e.2))).map (·.1) = (es.map (·.1)).map some := by simp
    rw [hkeys] at hcount
    rwa [List.count_map_of_injective _ _ (fun _ _ => Option.some.inj)] at hcount

theorem Holds.getElem?_record? (hx : Holds names name v x) (hname : name ∈ names) (h : record? names v = some items) :
    items[names.idxOf name]? = some (some x) := by
  cases hx with
  | @object fs _ hx =>
    obtain ⟨es, hnamed, hread⟩ := Option.bind_eq_some_iff.mp h
    have hes : (name, x) ∈ es := by
      rw [eq_of_namedFields hnamed] at hx
      simpa using hx
    have hitem := congrArg (·[names.idxOf name]?) (mapM_eq_some_iff.mp hread)
    simp only [List.getElem?_map, List.getElem?_idxOf hname, Option.map_some] at hitem
    obtain ⟨y, hy, hfield⟩ := Option.map_eq_some_iff.mp hitem.symm
    rw [hy, field?_eq_some_of_mem hes hfield.symm]
  | array hx =>
    rw [record?] at h
    split at h
    · obtain rfl := Option.some.inj h
      rw [List.getElem?_append_left, List.getElem?_map, hx, Option.map_some]
      rw [List.length_map]
      exact (List.getElem?_eq_some_iff.mp hx).1
    · cases h

theorem list?_eq_none {α : Type} {read : JsonValue → Option α} (hx : x ∈ vs) (h : read x = none) :
    list? read (.array vs) = none := mapM_eq_none hx h

theorem table?_eq_none {α : Type} {read : JsonValue → Option α} {fs : List (Option String × JsonValue)}
    {key : Option String} (hx : (key, x) ∈ fs) (h : read x = none) : table? read (.object fs) = none := by
  have hkeyed : keyed? read (key, x) = none := by
    cases key with
    | none => rfl
    | some key => simp [keyed?, h]
  rw [table?, mapM_eq_none hx hkeyed, Option.map_none]

end NativeBuild.JsonValue
