import NativeBuild.Proofs.Files.Listing
import NativeBuild.Proofs.Path.Below
import Mathlib.Data.List.Induction
import Mathlib.Data.List.Perm.Subperm

namespace NativeBuild

namespace Path

variable {p q : Path} {name : String} {names : List String}

theorem extend_names_cons (p : Path) (name : String) (names : List String) :
    p.extend ((name :: names).map .name) = (p.child name).extend (names.map .name) := rfl

theorem extend_names_concat (p : Path) (names : List String) (name : String) :
    p.extend ((names ++ [name]).map .name) = (p.extend (names.map .name)).child name := by
  rw [extend, extend, List.map_append, List.foldl_append]
  rfl

theorem placeFrom_child_name (p : Path) (hname : IsName name) (cwd : Place) :
    (p.child name).placeFrom cwd = p.placeFrom cwd ++ [name] := by
  rw [FileTree.placeFrom_child p hname.slashless, stepsOf_name hname.nonempty, List.foldl_cons, List.foldl_nil,
    hname.step_eq]

theorem placeFrom_extend_names (p : Path) (hnames : ∀ n ∈ names, IsName n) (cwd : Place) :
    (p.extend (names.map .name)).placeFrom cwd = p.placeFrom cwd ++ names := by
  induction names generalizing p with
  | nil => exact (List.append_nil _).symm
  | cons name names ih =>
    obtain ⟨hname, hnames⟩ := List.forall_mem_cons.mp hnames
    rw [extend_names_cons, ih _ hnames, placeFrom_child_name p hname, List.append_assoc, List.singleton_append]

section

variable {ps qs : List Path}

theorem nodup_of_increasing (h : ps.Pairwise (fun p q => compare p.components q.components = .lt)) : ps.Nodup := by
  refine h.imp fun {p q} hlt heq => ?_
  rw [heq] at hlt
  exact absurd hlt (by simp)

theorem eq_of_increasing (hps : ps.Pairwise (fun p q => compare p.components q.components = .lt))
    (hqs : qs.Pairwise (fun p q => compare p.components q.components = .lt)) (h : ∀ p, p ∈ ps ↔ p ∈ qs) : ps = qs := by
  have hperm : ps.Perm qs := (List.perm_ext_iff_of_nodup (nodup_of_increasing hps) (nodup_of_increasing hqs)).mpr h
  apply hperm.eq_of_pairwise _ hps hqs
  intro p q _ _ hpq hqp
  exact absurd hqp (Std.OrientedCmp.not_lt_of_lt hpq)

end

end Path

namespace FileTree

variable {t : FileTree} {place : Place} {p q : Path} {name : String} {names : List String}
  {listing : Place → List String} {n : Nat}

theorem directory_of_append (h : t.node? (place ++ name :: names) ≠ none) : t.node? place = some .directory := by
  induction names using List.reverseRecOn with
  | nil => exact t.rooted place name h
  | append_singleton names last ih =>
    rw [← List.cons_append, ← List.append_assoc] at h
    apply ih
    have hdirectory := t.rooted _ _ h
    rw [node?, hdirectory]
    nofun

theorem node?_take (h : t.node? place ≠ none) (k : Nat) : t.node? (place.take k) ≠ none := by
  cases hrest : place.drop k with
  | nil =>
    rwa [← List.append_nil (place.take k), ← hrest, List.take_append_drop]
  | cons name names =>
    rw [← List.take_append_drop k place, hrest] at h
    simp [directory_of_append h]

theorem length_le_size (h : t.node? place ≠ none) : place.length ≤ t.size := by
  have hdepths : List.range' 1 place.length ⊆ t.nodes.keys.map List.length := by
    intro k hk
    obtain ⟨hpos, hle⟩ := List.mem_range'_1.mp hk
    have hne : place.take k ≠ [] := by
      rw [ne_eq, List.take_eq_nil_iff, not_or]
      exact ⟨by omega, List.ne_nil_of_length_pos (by omega)⟩
    refine List.mem_map.mpr ⟨place.take k, ?_, by rw [List.length_take]; omega⟩
    have hnode := node?_take h k
    rw [OrderedMap.mem_keys_iff, Option.isSome_iff_ne_none]
    simpa [node?, NodeTable.node?, hne] using hnode
  have hlength := (List.Nodup.subperm List.nodup_range' hdepths).length_le
  simpa [size, OrderedMap.keys] using hlength

def Readable (t : FileTree) (p : Path) : Prop :=
  ∀ names, t.node? (p.placeFrom t.workingDirectory ++ names) = some .directory →
    t.isDirectory (p.extend (names.map .name)) = true

instance (t : FileTree) (p : Path) : Decidable (t.Readable p) :=
  decidable_of_iff (∀ place ∈ [] :: t.nodes.keys, p.placeFrom t.workingDirectory <+: place →
      t.node? place = some .directory →
        t.isDirectory (p.extend ((place.drop (p.placeFrom t.workingDirectory).length).map .name)) = true) <| by
    constructor
    · intro h names hnode
      have hplace : p.placeFrom t.workingDirectory ++ names ∈ [] :: t.nodes.keys := by
        by_cases hne : p.placeFrom t.workingDirectory ++ names = []
        · exact hne ▸ List.mem_cons_self
        · apply List.mem_cons_of_mem
          rw [OrderedMap.mem_keys_iff]
          simpa [node?, NodeTable.node?, hne] using Option.isSome_of_eq_some hnode
      simpa using h _ hplace (List.prefix_append _ _) hnode
    · rintro h place - ⟨names, rfl⟩ hnode
      simpa using h names hnode

theorem Readable.child (h : t.Readable p) (hname : IsName name) : t.Readable (p.child name) := by
  intro names hnode
  rw [Path.placeFrom_child_name p hname, List.append_assoc] at hnode
  exact h (name :: names) hnode

def Lists (t : FileTree) (listing : Place → List String) : Prop := ∀ place, (listing place).Perm (t.namesIn place)

theorem Lists.mem_iff (h : t.Lists listing) : name ∈ listing place ↔ t.node? (place ++ [name]) ≠ none := by
  rw [(h place).mem_iff, mem_namesIn]

theorem Lists.isName (h : t.Lists listing) (hnames : t.WellNamed) (hname : name ∈ listing place) : IsName name :=
  hnames.isName ((h place).mem_iff.mp hname)

theorem Lists.node?_eq_directory (h : t.Lists listing) (hlisted : name ∈ listing place)
    (hnofile : ∀ bytes executable, t.node? (place ++ [name]) ≠ some (.file bytes executable)) :
    t.node? (place ++ [name]) = some .directory := by
  cases hnode : t.node? (place ++ [name]) with
  | none => exact absurd hnode (h.mem_iff.mp hlisted)
  | some node =>
    cases node with
    | directory => rfl
    | file bytes executable => exact absurd hnode (hnofile bytes executable)

def filesAt (t : FileTree) (listing : Place → List String) (n : Nat) (p : Path) (place : Place) (name : String) :
    List Path :=
  match t.node? (place ++ [name]) with
  | some (.file ..) => [p.child name]
  | _ => t.filesBelow listing n (p.child name)

theorem filesBelow_succ (h : t.isDirectory p = true) (listing : Place → List String) (n : Nat) :
    t.filesBelow listing (n + 1) p = (listing (p.placeFrom t.workingDirectory)).flatMap
      (t.filesAt listing n p (p.placeFrom t.workingDirectory)) := by
  obtain ⟨place, hplace, -⟩ := isDirectory_iff.mp h
  rw [placeFrom_of_locate hplace, filesBelow]
  simp only [hplace, h, if_true]
  rfl

theorem filesBelow_of_not_isDirectory (h : t.isDirectory p = false) (listing : Place → List String) (n : Nat) :
    t.filesBelow listing n p = [] := by
  cases n with
  | zero => rfl
  | succ n =>
    rw [filesBelow]
    cases t.locate p <;> simp [h]

def FileAt (t : FileTree) (place : Place) : Prop := ∃ bytes executable, t.node? place = some (.file bytes executable)

theorem mem_filesBelow (hnames : t.WellNamed) (hlisting : t.Lists listing) (hreadable : t.Readable p)
    (hp : t.isDirectory p = true) : q ∈ t.filesBelow listing n p ↔
      ∃ names ≠ [], names.length ≤ n ∧ t.FileAt (p.placeFrom t.workingDirectory ++ names) ∧
        q = p.extend (names.map .name) := by
  induction n generalizing p with
  | zero =>
    refine iff_of_false List.not_mem_nil ?_
    rintro ⟨names, hne, hlength, -⟩
    exact hne (List.eq_nil_of_length_eq_zero (Nat.le_zero.mp hlength))
  | succ n ih =>
    have hbelow (name : String) (hname : IsName name)
        (hnode : t.node? (p.placeFrom t.workingDirectory ++ [name]) = some .directory) :
        q ∈ t.filesBelow listing n (p.child name) ↔ ∃ names ≠ [], names.length ≤ n ∧
          t.FileAt (p.placeFrom t.workingDirectory ++ name :: names) ∧ q = p.extend ((name :: names).map .name) := by
      rw [ih (hreadable.child hname) (hreadable [name] hnode), Path.placeFrom_child_name p hname]
      simp only [List.append_assoc, List.singleton_append, Path.extend_names_cons]
    rw [filesBelow_succ hp, List.mem_flatMap]
    constructor
    · rintro ⟨name, hlisted, hq⟩
      have hname := hlisting.isName hnames hlisted
      rw [filesAt] at hq
      split at hq
      · next bytes executable hnode =>
        exact ⟨[name], List.cons_ne_nil _ _, by simp, ⟨bytes, executable, hnode⟩, List.mem_singleton.mp hq⟩
      · next hnofile =>
        have hnode := hlisting.node?_eq_directory hlisted hnofile
        obtain ⟨names, -, hlength, hfile, hq⟩ := (hbelow name hname hnode).mp hq
        exact ⟨name :: names, List.cons_ne_nil _ _, by simpa using hlength, hfile, hq⟩
    · rintro ⟨names, hne, hlength, hfile, hq⟩
      obtain ⟨name, names, rfl⟩ := List.exists_cons_of_ne_nil hne
      obtain ⟨bytes, executable, hnode⟩ := hfile
      by_cases hlast : names = []
      · rw [hlast] at hnode hq
        refine ⟨name, hlisting.mem_iff.mpr (by simp [hnode]), ?_⟩
        rw [filesAt, hnode]
        exact List.mem_singleton.mpr hq
      · obtain ⟨next, names, rfl⟩ := List.exists_cons_of_ne_nil hlast
        have hbeyond : t.node? ((p.placeFrom t.workingDirectory ++ [name]) ++ next :: names) ≠ none := by
          rw [List.append_assoc, List.singleton_append, hnode]
          nofun
        have hdirectory : t.node? (p.placeFrom t.workingDirectory ++ [name]) = some .directory :=
          directory_of_append hbeyond
        have hlisted : name ∈ listing (p.placeFrom t.workingDirectory) := hlisting.mem_iff.mpr (by simp [hdirectory])
        refine ⟨name, hlisted, ?_⟩
        rw [filesAt, hdirectory]
        exact (hbelow name (hlisting.isName hnames hlisted) hdirectory).mpr
          ⟨next :: names, hlast, by simpa using hlength, ⟨bytes, executable, hnode⟩, hq⟩

theorem below_of_mem_filesAt (hname : IsName name)
    (hbelow : ∀ r ∈ t.filesBelow listing n (p.child name), ∃ names, Path.Below (p.child name) names r)
    (h : q ∈ t.filesAt listing n p place name) : ∃ names, Path.Below p (name :: names) q := by
  rw [filesAt] at h
  split at h
  · refine ⟨[], ?_⟩
    rw [List.mem_singleton.mp h]
    exact Path.components_child p hname
  · obtain ⟨names, hq⟩ := hbelow q h
    refine ⟨names, ?_⟩
    rw [Path.Below, hq, Path.components_child p hname, List.append_assoc]
    rfl

theorem below_of_mem_filesBelow (hnames : t.WellNamed) (hlisting : t.Lists listing) (h : q ∈ t.filesBelow listing n p) :
    ∃ names, Path.Below p names q := by
  induction n generalizing p q with
  | zero => cases h
  | succ n ih =>
    by_cases hp : t.isDirectory p = true
    · rw [filesBelow_succ hp, List.mem_flatMap] at h
      obtain ⟨name, hlisted, hq⟩ := h
      obtain ⟨names, hbelow⟩ := below_of_mem_filesAt (hlisting.isName hnames hlisted) (fun r hr => ih hr) hq
      exact ⟨name :: names, hbelow⟩
    · rw [filesBelow_of_not_isDirectory (by simpa using hp)] at h
      cases h

theorem filesBelow_apart (hnames : t.WellNamed) (hlisting : t.Lists listing) (n : Nat) (p : Path) :
    (t.filesBelow listing n p).Pairwise (fun q r => ¬ q.Same r) := by
  induction n generalizing p with
  | zero => exact List.Pairwise.nil
  | succ n ih =>
    by_cases hp : t.isDirectory p = true
    · rw [filesBelow_succ hp, List.pairwise_flatMap]
      constructor
      · intro name _
        rw [filesAt]
        split
        · exact List.pairwise_singleton _ _
        · exact ih (p.child name)
      · have hnodup : (listing (p.placeFrom t.workingDirectory)).Nodup := (hlisting _).nodup_iff.mpr (t.namesIn_nodup _)
        refine hnodup.imp_of_mem fun {name name'} hlisted hlisted' hne q hq r hr hsame => hne ?_
        -- Paths that go on by different names differ in the component behind those of the directory.
        obtain ⟨names, hbelow⟩ := below_of_mem_filesAt (hlisting.isName hnames hlisted)
          (fun r hr => below_of_mem_filesBelow hnames hlisting hr) hq
        obtain ⟨names', hbelow'⟩ := below_of_mem_filesAt (hlisting.isName hnames hlisted')
          (fun r hr => below_of_mem_filesBelow hnames hlisting hr) hr
        rw [Path.Same, hbelow, hbelow', List.append_cancel_left_eq, List.map_cons, List.map_cons] at hsame
        exact Path.Component.name.inj (List.cons.inj hsame).1
    · rw [filesBelow_of_not_isDirectory (by simpa using hp)]
      exact List.Pairwise.nil

end FileTree

end NativeBuild
