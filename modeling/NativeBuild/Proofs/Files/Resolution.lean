import NativeBuild.Files.Update

namespace NativeBuild

namespace Path

def start (p : Path) (cwd : Place) : Place := if p.isAbsolute then [] else cwd

def placeFrom (p : Path) (cwd : Place) : Place := p.steps.foldl FileTree.step (p.start cwd)

theorem steps_ne_nil {p : Path} (ht : p.text ≠ "") (ha : p.isAbsolute = false) : p.steps ≠ [] := by
  have hchars : p.chars ≠ [] := fun h => ht (by rw [← String.ofList_toList (s := p.text)]; exact congrArg _ h)
  cases hp : p.chars with
  | nil => exact absurd hp hchars
  | cons c cs =>
    have hc : c ≠ '/' := by
      rintro rfl
      simp [isAbsolute, hp] at ha
    have hpieces : ∃ q qs, Text.pieces '/' (c :: cs) = (c :: q) :: qs := by
      rw [Text.pieces, if_neg hc]
      split
      · exact ⟨[], [], rfl⟩
      · exact ⟨_, _, rfl⟩
    obtain ⟨q, qs, hq⟩ := hpieces
    simp [steps, hp, hq]

end Path

namespace FileTree

variable {s t : FileTree} {place q : Place} {names : List String} {p : Path}

theorem requireDirectory_eq_ok_iff : t.requireDirectory place = .ok () ↔ t.node? place = some .directory := by
  rw [requireDirectory]
  split <;> simp_all

/-- The places from which the steps are made. -/
def stops (place : Place) : List String → List Place
  | [] => []
  | name :: rest => place :: stops (step place name) rest

theorem follow_cons (name : String) (rest : List String) :
    t.follow place (name :: rest) = (t.requireDirectory place).bind (fun _ =>
      if nameLimit < name.utf8ByteSize then .error .nameTooLong else t.follow (step place name) rest) := rfl

theorem follow_eq_ok_iff :
    t.follow place names = .ok q ↔
      (∀ v ∈ stops place names, t.node? v = some .directory) ∧
        (∀ n ∈ names, n.utf8ByteSize ≤ nameLimit) ∧ names.foldl step place = q := by
  induction names generalizing place with
  | nil => simp [follow, stops]
  | cons name rest ih =>
    rw [follow_cons, stops, List.forall_mem_cons, List.forall_mem_cons, List.foldl_cons]
    cases hd : t.requireDirectory place with
    | error e =>
      have hnone : t.node? place ≠ some .directory := fun h => by
        rw [requireDirectory_eq_ok_iff.mpr h] at hd
        cases hd
      simp [Except.bind, hnone]
    | ok _ =>
      have hdirectory := requireDirectory_eq_ok_iff.mp hd
      by_cases hlong : nameLimit < name.utf8ByteSize
      · simp [Except.bind, hlong, Nat.not_le_of_lt hlong]
      · simp [Except.bind, hlong, ih, hdirectory, Nat.le_of_not_lt hlong]

theorem follow_congr (h : ∀ v ∈ stops place names, s.requireDirectory v = t.requireDirectory v) :
    s.follow place names = t.follow place names := by
  induction names generalizing place with
  | nil => rfl
  | cons name rest ih =>
    obtain ⟨hplace, hrest⟩ := List.forall_mem_cons.mp h
    rw [follow_cons, follow_cons, hplace, ih hrest]

theorem directory_root : t.node? [] = some .directory := rfl

theorem directory_dropLast (h : t.node? place ≠ none) : t.node? place.dropLast = some .directory := by
  cases hp : place.getLast? with
  | none =>
    obtain rfl := List.getLast?_eq_none_iff.mp hp
    exact directory_root
  | some name =>
    obtain ⟨parent, rfl⟩ := List.getLast?_eq_some_iff.mp hp
    rw [List.dropLast_concat]
    exact t.rooted parent name h

theorem directory_above_step (h : t.node? place = some .directory) (name : String) :
    t.node? (step place name).dropLast = some .directory := by
  have hplace : t.node? place ≠ none := by simp [h]
  rw [step]
  split
  · exact directory_dropLast hplace
  · split
    · apply directory_dropLast
      simp [directory_dropLast hplace]
    · rw [List.dropLast_concat]
      exact h

theorem directory_above_follow (h : t.follow place names = .ok q) (hn : names ≠ []) :
    t.node? q.dropLast = some .directory := by
  induction names generalizing place with
  | nil => exact absurd rfl hn
  | cons name rest ih =>
    obtain ⟨hstops, hshort, hq⟩ := follow_eq_ok_iff.mp h
    obtain ⟨hplace, hrest⟩ := List.forall_mem_cons.mp hstops
    cases rest with
    | nil =>
      rw [← hq]
      exact directory_above_step hplace name
    | cons name' rest =>
      have hfollow := follow_eq_ok_iff.mpr ⟨hrest, (List.forall_mem_cons.mp hshort).2, hq⟩
      exact ih hfollow (List.cons_ne_nil _ _)

end FileTree

namespace Path

def wayFrom (p : Path) (cwd : Place) : List Place := FileTree.stops (p.start cwd) p.steps

structure Proper (p : Path) : Prop where
  whole : '\x00' ∉ p.chars
  nonempty : p.text ≠ ""
  short : p.text.utf8ByteSize < FileTree.pathLimit
  steps_short : ∀ s ∈ p.steps, s.utf8ByteSize ≤ FileTree.nameLimit

end Path

namespace FileTree

variable {s t : FileTree} {place q : Place} {p : Path}

theorem locate_eq_ok_iff :
    t.locate p = .ok place ↔
      p.Proper ∧ (∀ v ∈ p.wayFrom t.workingDirectory, t.node? v = some .directory) ∧
        p.placeFrom t.workingDirectory = place := by
  rw [locate]
  split
  · next h => exact ⟨nofun, fun hp => absurd h hp.1.whole⟩
  · next hwhole =>
    split
    · next h => exact ⟨nofun, fun hp => absurd h hp.1.nonempty⟩
    · next hempty =>
      split
      · next h => exact ⟨nofun, fun hp => absurd hp.1.short (Nat.not_lt.mpr h)⟩
      · next hlong =>
        rw [follow_eq_ok_iff]
        constructor
        · rintro ⟨hway, hshort, hplace⟩
          exact ⟨⟨hwhole, hempty, Nat.lt_of_not_le hlong, hshort⟩, hway, hplace⟩
        · rintro ⟨hproper, hway, hplace⟩
          exact ⟨hway, hproper.steps_short, hplace⟩

theorem placeFrom_of_locate (h : t.locate p = .ok place) : p.placeFrom t.workingDirectory = place :=
  (locate_eq_ok_iff.mp h).2.2

theorem locate_congr (hw : s.workingDirectory = t.workingDirectory)
    (h : ∀ v ∈ p.wayFrom t.workingDirectory, s.requireDirectory v = t.requireDirectory v) :
    s.locate p = t.locate p := by
  rw [locate, locate, hw, follow_congr (s := s) (t := t)]
  exact h

theorem locate_mono (hw : s.workingDirectory = t.workingDirectory)
    (h : ∀ v, s.node? v = some .directory → t.node? v = some .directory)
    (hs : s.locate p = .ok place) : t.locate p = .ok place := by
  obtain ⟨hproper, hway, hplace⟩ := locate_eq_ok_iff.mp hs
  rw [hw] at hway hplace
  exact locate_eq_ok_iff.mpr ⟨hproper, fun v hv => h v (hway v hv), hplace⟩

theorem directory_above (h : t.locate p = .ok place) : t.node? place.dropLast = some .directory := by
  obtain ⟨hproper, hway, hplace⟩ := locate_eq_ok_iff.mp h
  cases ha : p.isAbsolute with
  | false =>
    have hfollow : t.follow (p.start t.workingDirectory) p.steps = .ok place :=
      follow_eq_ok_iff.mpr ⟨hway, hproper.steps_short, hplace⟩
    exact directory_above_follow hfollow (Path.steps_ne_nil hproper.nonempty ha)
  | true =>
    have hstart : p.start t.workingDirectory = [] := by simp [Path.start, ha]
    by_cases hs : p.steps = []
    · rw [Path.placeFrom, hs, hstart] at hplace
      rw [← hplace]
      exact directory_root
    · have hfollow : t.follow (p.start t.workingDirectory) p.steps = .ok place :=
        follow_eq_ok_iff.mpr ⟨hway, hproper.steps_short, hplace⟩
      exact directory_above_follow hfollow hs

theorem fits_of_locate (h : t.locate p = .ok place) (hd : t.node? place ≠ some .directory) (node : Node) :
    t.Fits place node := by
  refine ⟨?_, directory_above h, fun hp => absurd hp hd⟩
  rintro rfl
  exact hd directory_root

end FileTree

end NativeBuild
