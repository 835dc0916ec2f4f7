import NativeBuild.Proofs.Path.Child
import Mathlib.Data.List.Nodup

namespace NativeBuild

namespace FileTree

variable {t : FileTree} {place : Place} {name : String} {p : Path}

def WellNamed (t : FileTree) : Prop := ∀ place ∈ t.nodes.keys, ∀ name ∈ place, IsName name

instance (t : FileTree) : Decidable t.WellNamed := inferInstanceAs (Decidable (∀ place ∈ _, _))

theorem mem_namesIn : name ∈ t.namesIn place ↔ t.node? (place ++ [name]) ≠ none := by
  have hnode : t.node? (place ++ [name]) ≠ none ↔ place ++ [name] ∈ t.nodes.keys := by
    rw [OrderedMap.mem_keys_iff, Option.isSome_iff_ne_none]
    simp [node?, NodeTable.node?]
  rw [hnode, namesIn, List.mem_filterMap]
  constructor
  · rintro ⟨k, hk, hname⟩
    obtain ⟨hplace, hlast⟩ := Option.ite_none_right_eq_some.mp hname
    obtain ⟨front, rfl⟩ := List.getLast?_eq_some_iff.mp hlast
    rw [List.dropLast_concat] at hplace
    exact hplace ▸ hk
  · intro hk
    exact ⟨place ++ [name], hk, by simp⟩

theorem WellNamed.isName (h : t.WellNamed) (hname : name ∈ t.namesIn place) : IsName name := by
  obtain ⟨k, hk, hlast⟩ := List.mem_filterMap.mp hname
  obtain ⟨-, hlast⟩ := Option.ite_none_right_eq_some.mp hlast
  exact h k hk name (List.mem_of_getLast? hlast)

theorem wellNamed_iff : t.WellNamed ↔ ∀ place, t.node? place ≠ none → ∀ name ∈ place, IsName name := by
  have hkeys (place : Place) (hne : place ≠ []) : place ∈ t.nodes.keys ↔ t.node? place ≠ none := by
    rw [OrderedMap.mem_keys_iff, Option.isSome_iff_ne_none]
    simp [node?, NodeTable.node?, hne]
  constructor
  · intro h place hnode name hname
    exact h place ((hkeys place (List.ne_nil_of_mem hname)).mpr hnode) name hname
  · intro h place hplace name hname
    exact h place ((hkeys place (List.ne_nil_of_mem hname)).mp hplace) name hname

theorem isName_of_mem_steps (hname : name ∈ p.steps) (hcurrent : name ≠ ".") (hparent : name ≠ "..") : IsName name := by
  obtain ⟨q, hq, rfl⟩ := List.mem_map.mp hname
  obtain ⟨hpiece, hne⟩ := List.mem_filter.mp hq
  refine ⟨by simpa using hne, ?_, hcurrent, hparent⟩
  rw [Slashless, String.toList_ofList]
  exact Text.not_mem_of_mem_pieces hpiece

theorem isName_of_mem_placeFrom {cwd : Place} (hcwd : ∀ n ∈ cwd, IsName n) (p : Path) :
    ∀ n ∈ p.placeFrom cwd, IsName n := by
  have hwalk (names : List String) (hnames : ∀ n ∈ names, n ∈ p.steps) (place : Place) (hplace : ∀ n ∈ place, IsName n) :
      ∀ n ∈ names.foldl step place, IsName n := by
    induction names generalizing place with
    | nil => exact hplace
    | cons s names ih =>
      obtain ⟨hs, hrest⟩ := List.forall_mem_cons.mp hnames
      apply ih hrest
      rw [step]
      split
      · exact hplace
      · next hcurrent =>
        split
        · exact fun n hn => hplace n ((List.dropLast_subset place) hn)
        · next hparent =>
          exact List.forall_mem_append.mpr
            ⟨hplace, List.forall_mem_singleton.mpr (isName_of_mem_steps hs hcurrent hparent)⟩
  apply hwalk p.steps (fun n hn => hn)
  rw [Path.start]
  split
  · exact List.forall_mem_nil _
  · exact hcwd

theorem WellNamed.put {s : FileTree} {node : Place → Node} (h : t.WellNamed) (hcwd : ∀ n ∈ t.workingDirectory, IsName n)
    (hs : ∀ place, s.node? place = if p.placeFrom t.workingDirectory = place then some (node place) else t.node? place) :
    s.WellNamed := by
  rw [wellNamed_iff] at h ⊢
  intro place hnode
  rw [hs] at hnode
  split at hnode
  · next heq => exact heq ▸ isName_of_mem_placeFrom hcwd p
  · exact h place hnode

theorem WellNamed.write (h : t.WellNamed) (hcwd : ∀ n ∈ t.workingDirectory, IsName n) (p : Path) (bytes : List UInt8) :
    (t.write p bytes).2.WellNamed := by
  cases hwrite : (t.write p bytes).1 with
  | error e => rwa [write_of_error hwrite]
  | ok _ => exact h.put hcwd fun _ => node?_write hwrite

theorem namesIn_nodup (t : FileTree) (place : Place) : (t.namesIn place).Nodup := by
  have hkeys : t.nodes.keys.Nodup := by
    rw [OrderedMap.keys, List.Nodup, List.pairwise_map]
    exact t.nodes.increasing.imp fun hlt heq => by simp [heq] at hlt
  apply hkeys.filterMap
  intro k k' n hk hk'
  obtain ⟨hplace, hlast⟩ := Option.ite_none_right_eq_some.mp (Option.mem_def.mp hk)
  obtain ⟨hplace', hlast'⟩ := Option.ite_none_right_eq_some.mp (Option.mem_def.mp hk')
  obtain ⟨front, rfl⟩ := List.getLast?_eq_some_iff.mp hlast
  obtain ⟨front', rfl⟩ := List.getLast?_eq_some_iff.mp hlast'
  rw [List.dropLast_concat] at hplace hplace'
  rw [hplace, hplace']

theorem children_eq (h : t.isDirectory p = true) :
    t.children p = (t.namesIn (p.placeFrom t.workingDirectory)).map p.child := by
  obtain ⟨place, hplace, -⟩ := isDirectory_iff.mp h
  simp [children, hplace, h, placeFrom_of_locate hplace]

end FileTree

namespace Path

variable {p q : Path} {ps : List Path}

theorem mem_sort : q ∈ sort ps ↔ q ∈ ps := List.mem_mergeSort

theorem sort_of_sorted (h : ps.Pairwise (fun p q => p.le q = true)) : sort ps = ps := List.mergeSort_of_pairwise h

theorem sort_increasing (h : ps.Pairwise (fun p q => ¬ p.Same q)) :
    (sort ps).Pairwise (fun p q => compare p.components q.components = .lt) := by
  have hle : (sort ps).Pairwise (fun p q => p.le q = true) := by
    apply List.pairwise_mergeSort
    · intro a b c hab hbc
      exact Std.TransCmp.isLE_trans hab hbc
    · intro a b
      have hswap : compare b.components a.components = (compare a.components b.components).swap :=
        Std.OrientedCmp.eq_swap
      rw [le, le, hswap]
      cases compare a.components b.components <;> rfl
  have hapart : (sort ps).Pairwise (fun p q => ¬ p.Same q) :=
    ((List.mergeSort_perm ps le).pairwise_iff fun {a b} hab hba => hab hba.symm).mpr h
  refine (hle.and hapart).imp fun {a b} hab => ?_
  have hne : compare a.components b.components ≠ .eq := fun heq => hab.2 (Std.LawfulEqOrd.eq_of_compare heq)
  have hgt := Ordering.isLE_iff_ne_gt.mp hab.1
  cases hcompare : compare a.components b.components <;> simp_all

end Path

end NativeBuild
