import NativeBuild.Ordered.Map

namespace NativeBuild

abbrev Place := List String

inductive Node where
  | directory
  | file (bytes : List UInt8) (executable : Bool)
  deriving DecidableEq, Repr, Inhabited

abbrev NodeTable := OrderedMap Place Node

def NodeTable.node? (nodes : NodeTable) (place : Place) : Option Node :=
  if place = [] then some .directory else nodes.get? place

structure FileTree where
  nodes : NodeTable
  workingDirectory : Place
  rooted : ∀ place name, nodes.node? (place ++ [name]) ≠ none → nodes.node? place = some .directory
  root_implied : nodes.get? [] = none

namespace FileTree

def empty : FileTree where
  nodes := ∅
  workingDirectory := []
  rooted := by intro place name h; simp [NodeTable.node?] at h
  root_implied := rfl

instance : Inhabited FileTree := ⟨empty⟩

instance : DecidableEq FileTree := fun s t =>
  if h : s.nodes = t.nodes ∧ s.workingDirectory = t.workingDirectory then
    isTrue (by cases s; cases t; simp_all)
  else isFalse (fun e => h (e ▸ ⟨rfl, rfl⟩))

def node? (t : FileTree) (place : Place) : Option Node := t.nodes.node? place

def enter (t : FileTree) (place : Place) : FileTree := { t with workingDirectory := place }

def Fits (t : FileTree) (place : Place) (node : Node) : Prop :=
  place ≠ [] ∧ t.node? place.dropLast = some .directory ∧
    (t.node? place = some .directory → node = .directory)

instance (t : FileTree) (place : Place) (node : Node) : Decidable (t.Fits place node) :=
  inferInstanceAs (Decidable (_ ∧ _ ∧ (_ → _)))

theorem node?_insert {nodes : NodeTable} {place other : Place} {node : Node} (h : place ≠ []) :
    NodeTable.node? (nodes.insert place node) other =
      if place = other then some node else nodes.node? other := by
  unfold NodeTable.node?
  by_cases hp : other = []
  · subst hp; simp [h]
  · simp [hp]

def set (t : FileTree) (place : Place) (node : Node) : FileTree :=
  if fits : t.Fits place node then
    { t with
      nodes := t.nodes.insert place node
      rooted := by
        obtain ⟨hne, hparent, hkind⟩ := fits
        intro p name h
        rw [node?_insert hne] at h ⊢
        have hold : t.nodes.node? p = some .directory := by
          split at h
          · next e => subst e; simpa [node?] using hparent
          · exact t.rooted p name h
        split
        · next e => subst e; rw [hkind hold]
        · exact hold
      root_implied := by simp [OrderedMap.get?_insert, fits.1, t.root_implied] }
  else t

theorem node?_erase {nodes : NodeTable} {place other : Place} (h : place ≠ []) :
    NodeTable.node? (nodes.erase place) other = if place = other then none else nodes.node? other := by
  unfold NodeTable.node?
  by_cases hp : other = []
  · subst hp; simp [h]
  · simp [hp]

def remove (t : FileTree) (place : Place) : FileTree :=
  if file : place ≠ [] ∧ t.node? place ≠ some .directory then
    { t with
      nodes := t.nodes.erase place
      rooted := by
        obtain ⟨hne, hfile⟩ := file
        intro p name h
        rw [node?_erase hne] at h ⊢
        have hold : t.nodes.node? p = some .directory := by
          split at h
          · simp at h
          · exact t.rooted p name h
        split
        · next e => subst e; exact absurd hold hfile
        · exact hold
      root_implied := by simp [OrderedMap.get?_erase, t.root_implied] }
  else t

theorem node?_filter {nodes : NodeTable} {p : Place → Bool} {place : Place} :
    NodeTable.node? (nodes.filter (fun k _ => p k)) place =
      if place = [] then some .directory else if p place then nodes.node? place else none := by
  unfold NodeTable.node?
  by_cases h : place = []
  · simp [h]
  · simp only [h, if_false]
    exact OrderedMap.get?_filter_key

def removeAll (t : FileTree) (place : Place) : FileTree :=
  { t with
    nodes := t.nodes.filter (fun k _ => !place.isPrefixOf k)
    rooted := by
      intro p name h
      rw [node?_filter] at h ⊢
      split
      · rfl
      · next hp =>
        simp only [List.append_eq_nil_iff, List.cons_ne_self, and_false, if_false] at h
        split at h
        · next hk =>
          have hpre : (!place.isPrefixOf p) = true := by
            rw [Bool.not_eq_true', ← Bool.not_eq_true] at hk ⊢
            intro hq
            exact hk (List.isPrefixOf_iff_prefix.2
              ((List.isPrefixOf_iff_prefix.1 hq).trans (List.prefix_append p [name])))
          rw [if_pos hpre]
          exact t.rooted p name h
        · simp at h
    root_implied := by
      rw [OrderedMap.get?_filter_key, t.root_implied]
      simp }

def namesIn (t : FileTree) (place : Place) : List String :=
  t.nodes.keys.filterMap (fun k => if k.dropLast = place then k.getLast? else none)

def size (t : FileTree) : Nat := t.nodes.toList.length

@[simp] theorem node?_set {t : FileTree} {place other : Place} {node : Node} (h : t.Fits place node) :
    (t.set place node).node? other = if place = other then some node else t.node? other := by
  simp only [set, h, dif_pos, node?]
  exact node?_insert h.1

theorem node?_remove {t : FileTree} {place other : Place} (h : t.node? place ≠ some .directory) :
    (t.remove place).node? other = if place = other then none else t.node? other := by
  have hne : place ≠ [] := by rintro rfl; simp [node?, NodeTable.node?] at h
  rw [remove, dif_pos ⟨hne, h⟩]
  exact node?_erase hne

theorem node?_removeAll {t : FileTree} {place other : Place} :
    (t.removeAll place).node? other =
      if other = [] then some .directory
      else if place.isPrefixOf other = true then none else t.node? other := by
  rw [removeAll, node?, node?_filter]
  by_cases h : other = []
  · simp [h]
  · cases hp : place.isPrefixOf other <;> simp [h, node?]

theorem ext_node? {s t : FileTree} (hw : s.workingDirectory = t.workingDirectory)
    (h : ∀ place, s.node? place = t.node? place) : s = t := by
  have hn : s.nodes = t.nodes := by
    apply OrderedMap.ext
    intro k
    by_cases hk : k = []
    · rw [hk, s.root_implied, t.root_implied]
    · have := h k
      simpa [node?, NodeTable.node?, hk] using this
  cases s; cases t; simp_all

end FileTree

end NativeBuild
