import NativeBuild.Build.Run
import NativeBuild.Proofs.Files.Congruence
import NativeBuild.Proofs.Files.Patching
import Mathlib.Data.List.Induction

namespace NativeBuild

/-- A path that leads neither to a place nor below it, nor through it. -/
def Path.Outside (p : Path) (cwd d : Place) : Prop :=
  (∀ v ∈ p.wayFrom cwd, ¬ d <+: v) ∧ ¬ d <+: p.placeFrom cwd

instance (p : Path) (cwd d : Place) : Decidable (p.Outside cwd d) := inferInstanceAs (Decidable (_ ∧ _))

namespace FileTree

structure SameOutside (d : Place) (s t : FileTree) : Prop where
  workingDirectory : s.workingDirectory = t.workingDirectory
  node? : ∀ v, ¬ d <+: v → s.node? v = t.node? v

variable {r s t : FileTree} {d cwd : Place} {p : Path} {bytes : List UInt8}

theorem sameOutside_removeAll (t : FileTree) (d : Place) : SameOutside d (t.removeAll d) t := by
  refine ⟨rfl, fun v hv => ?_⟩
  have hprefix : d.isPrefixOf v = false := by
    rw [← Bool.not_eq_true, List.isPrefixOf_iff_prefix]
    exact hv
  rw [node?_removeAll, hprefix]
  split
  · next h => rw [h, directory_root]
  · rfl

theorem sameOutside_clear (t : FileTree) (p : Path) :
    SameOutside (p.placeFrom t.workingDirectory) (Build.clear t p) t := by
  rw [Build.clear]
  split
  · next place h =>
    rw [placeFrom_of_locate h]
    exact sameOutside_removeAll t place
  · exact ⟨rfl, fun _ _ => rfl⟩

theorem node?_below_of_none (h : t.node? d = none) (r : Place) : t.node? (d ++ r) = none := by
  induction r using List.reverseRec with
  | nil => rwa [List.append_nil]
  | append_singleton r name ih =>
    by_contra hnode
    rw [← List.append_assoc] at hnode
    have hdirectory : t.node? (d ++ r) = some .directory := t.rooted _ _ hnode
    rw [ih] at hdirectory
    cases hdirectory

theorem node?_clear_of_made (hmade : (s.makeDirectory p).1 = .ok ()) (hw : t.workingDirectory = s.workingDirectory)
    (hkept : ∀ v, ¬ p.placeFrom s.workingDirectory <+: v → s.node? v = some .directory →
      t.node? v = some .directory) (v : Place) :
    (Build.clear t p).node? v = if p.placeFrom s.workingDirectory <+: v then s.node? v else t.node? v := by
  obtain ⟨place, hplace, hnone⟩ := makeDirectory_eq_ok_iff.mp hmade
  have hd := placeFrom_of_locate hplace
  rw [hd] at hkept ⊢
  have hbelow {v : Place} (hv : place <+: v) : s.node? v = none := by
    obtain ⟨r, rfl⟩ := hv
    exact node?_below_of_none hnone r
  have hlocate : t.locate p = .ok place := by
    obtain ⟨hproper, hway, -⟩ := locate_eq_ok_iff.mp hplace
    refine locate_eq_ok_iff.mpr ⟨hproper, fun v hv => ?_, by rw [hw, hd]⟩
    rw [hw] at hv
    refine hkept v (fun hprefix => ?_) (hway v hv)
    have hdirectory := hway v hv
    rw [hbelow hprefix] at hdirectory
    cases hdirectory
  rw [Build.clear, hlocate]
  dsimp only
  rw [node?_removeAll]
  split
  · next hroot =>
    subst hroot
    split <;> rfl
  · simp only [List.isPrefixOf_iff_prefix]
    split
    · next hv => exact (hbelow hv).symm
    · rfl

namespace SameOutside

theorem refl (d : Place) (t : FileTree) : SameOutside d t t := ⟨rfl, fun _ _ => rfl⟩

theorem locate (h : SameOutside d s t) (hp : p.Outside t.workingDirectory d) : s.locate p = t.locate p := by
  apply locate_congr h.workingDirectory
  intro v hv
  rw [requireDirectory, requireDirectory, h.node? v (hp.1 v hv)]

theorem node?_of_locate (h : SameOutside d s t) (hp : p.Outside t.workingDirectory d) {place : Place}
    (hplace : t.locate p = .ok place) : s.node? place = t.node? place :=
  h.node? place (placeFrom_of_locate hplace ▸ hp.2)

theorem lookup (h : SameOutside d s t) (hp : p.Outside t.workingDirectory d) : s.lookup p = t.lookup p := by
  rw [FileTree.lookup, FileTree.lookup, h.locate hp]
  cases hplace : t.locate p with
  | error e => rfl
  | ok place =>
    simp only [bind, Except.bind]
    rw [h.node?_of_locate hp hplace]

theorem isFile (h : SameOutside d s t) (hp : p.Outside t.workingDirectory d) : s.isFile p = t.isFile p := by
  rw [FileTree.isFile, FileTree.isFile, h.lookup hp]

theorem isDirectory (h : SameOutside d s t) (hp : p.Outside t.workingDirectory d) :
    s.isDirectory p = t.isDirectory p := by
  rw [FileTree.isDirectory, FileTree.isDirectory, h.lookup hp]

theorem exists? (h : SameOutside d s t) (hp : p.Outside t.workingDirectory d) : s.exists? p = t.exists? p := by
  rw [FileTree.exists?, FileTree.exists?, h.lookup hp]

theorem read (h : SameOutside d s t) (hp : p.Outside t.workingDirectory d) : s.read p = t.read p := by
  rw [FileTree.read, FileTree.read, h.lookup hp]

theorem set (h : SameOutside d s t) {place : Place} {node : Node} (hs : s.Fits place node)
    (ht : t.Fits place node) : SameOutside d (s.set place node) (t.set place node) := by
  refine ⟨by simp [h.workingDirectory], fun v hv => ?_⟩
  rw [node?_set hs, node?_set ht, h.node? v hv]

theorem makeDirectory (h : SameOutside d s t) (hp : p.Outside t.workingDirectory d) :
    SameResult (SameOutside d) (s.makeDirectory p) (t.makeDirectory p) := by
  have hlocate := h.locate hp
  cases hplace : t.locate p with
  | error e => exact ⟨by simp [FileTree.makeDirectory, hlocate, hplace], by simpa [FileTree.makeDirectory, hlocate, hplace]⟩
  | ok place =>
    have hnode := h.node?_of_locate hp hplace
    rw [hplace] at hlocate
    cases hn : t.node? place with
    | some node =>
      rw [hn] at hnode
      exact ⟨by simp [FileTree.makeDirectory, hlocate, hplace, hnode, hn],
        by simpa [FileTree.makeDirectory, hlocate, hplace, hnode, hn]⟩
    | none =>
      rw [hn] at hnode
      have hs : s.Fits place .directory := fits_of_locate hlocate (by simp [hnode]) _
      have ht : t.Fits place .directory := fits_of_locate hplace (by simp [hn]) _
      exact ⟨by simp [FileTree.makeDirectory, hlocate, hplace, hnode, hn],
        by simpa [FileTree.makeDirectory, hlocate, hplace, hnode, hn] using h.set hs ht⟩

theorem write (h : SameOutside d s t) (hp : p.Outside t.workingDirectory d) (bytes : List UInt8) :
    SameResult (SameOutside d) (s.write p bytes) (t.write p bytes) := by
  have hlocate := h.locate hp
  cases hplace : t.locate p with
  | error e => exact ⟨by simp [FileTree.write, hlocate, hplace], by simpa [FileTree.write, hlocate, hplace]⟩
  | ok place =>
    have hnode := h.node?_of_locate hp hplace
    rw [hplace] at hlocate
    rw [FileTree.write, FileTree.write, hlocate, hplace]
    dsimp only
    rw [hnode]
    split
    · exact ⟨rfl, h⟩
    · have hfits (node : Node) (hd : t.node? place ≠ some .directory) :
          SameOutside d (s.set place node) (t.set place node) :=
        h.set (fits_of_locate hlocate (hnode ▸ hd) node) (fits_of_locate hplace hd node)
      split
      · exact ⟨rfl, h⟩
      · next hn => exact ⟨rfl, hfits _ (by simp [hn])⟩
      · next hn => exact ⟨rfl, hfits _ (by simp [hn])⟩

theorem removeQuietly (h : SameOutside d s t) (hp : p.Outside t.workingDirectory d) :
    SameOutside d (s.removeQuietly p) (t.removeQuietly p) := by
  refine ⟨by simp [h.workingDirectory], fun v hv => ?_⟩
  rw [node?_removeQuietly, node?_removeQuietly, h.isFile hp, h.workingDirectory, h.node? v hv]

theorem apply (h : SameOutside d s t) (hp : p.Outside t.workingDirectory d) :
    SameResult (SameOutside d) (Patch.apply s p) (Patch.apply t p) := by
  have hlookup := h.lookup hp
  have hlocate := h.locate hp
  constructor
  case result =>
    rw [Patch.apply, Patch.apply, hlookup, hlocate]
    split
    · rfl
    · rfl
    · split <;> rfl
    · rfl
  case files =>
    refine ⟨by rw [Patch.workingDirectory_apply, Patch.workingDirectory_apply, h.workingDirectory], fun v hv => ?_⟩
    rw [Patch.node?_apply, Patch.node?_apply, h.isFile hp, h.workingDirectory, h.node? v hv]

theorem applyAll {ps : List Path} (h : SameOutside d s t) (hps : ∀ p ∈ ps, p.Outside t.workingDirectory d) :
    SameResult (SameOutside d) (Patch.applyAll s ps) (Patch.applyAll t ps) := by
  induction ps generalizing s t with
  | nil => exact ⟨rfl, h⟩
  | cons p ps ih =>
    obtain ⟨hp, hrest⟩ := List.forall_mem_cons.mp hps
    have hdirectory := Patch.workingDirectory_apply (t := t) (p := p)
    have happly := h.apply hp
    rw [Patch.applyAll, Patch.applyAll]
    revert hdirectory happly
    obtain ⟨result, s'⟩ := Patch.apply s p
    obtain ⟨result', t'⟩ := Patch.apply t p
    rintro hdirectory ⟨rfl : result = result', hfiles : SameOutside d s' t'⟩
    cases result with
    | error e => exact ⟨rfl, hfiles⟩
    | ok changed => exact ih hfiles (fun q hq => hdirectory ▸ hrest q hq)

theorem congruence (d cwd : Place) :
    Congruence (fun s t => SameOutside d s t ∧ t.workingDirectory = cwd) (fun p => p.Outside cwd d) where
  exists? := fun ⟨h, hw⟩ hp => h.exists? (hw ▸ hp)
  isDirectory := fun ⟨h, hw⟩ hp => h.isDirectory (hw ▸ hp)
  makeDirectory := fun ⟨h, hw⟩ hp =>
    have hmade := h.makeDirectory (hw ▸ hp)
    ⟨hmade.result, hmade.files, workingDirectory_makeDirectory.trans hw⟩
  write bytes := fun ⟨h, hw⟩ hp =>
    have hwritten := h.write (hw ▸ hp) bytes
    ⟨hwritten.result, hwritten.files, workingDirectory_write.trans hw⟩

end SameOutside

theorem node?_removeQuietly_below (hp : p.Outside t.workingDirectory d) {v : Place} (hv : d <+: v) :
    (t.removeQuietly p).node? v = t.node? v := by
  rw [node?_removeQuietly, if_neg]
  rintro ⟨-, rfl⟩
  exact hp.2 hv

theorem node?_applyAll_below {ps : List Path} (hps : ∀ p ∈ ps, p.Outside t.workingDirectory d) {v : Place}
    (hv : d <+: v) : (Patch.applyAll t ps).2.node? v = t.node? v := by
  rw [Patch.node?_applyAll, if_neg]
  intro hmem
  obtain ⟨p, hp, rfl⟩ := List.mem_map.mp hmem
  exact (hps p ((List.takeWhile_sublist _).subset hp)).2 hv

theorem node?_write_below (hp : p.Outside t.workingDirectory d) {v : Place} (hv : d <+: v) :
    (t.write p bytes).2.node? v = t.node? v := by
  cases hw : (t.write p bytes).1 with
  | error e => rw [write_of_error hw]
  | ok _ =>
    rw [node?_write hw, if_neg]
    rintro rfl
    exact hp.2 hv

theorem node?_writeText_below (hp : p.Outside t.workingDirectory d)
    (hroom : ∀ q ∈ roomFor p, q.Outside t.workingDirectory d) (text : String) {v : Place} (hv : d <+: v) :
    (t.writeText p text).2.node? v = t.node? v := by
  have hgrown := prepareRoom_grown (t := t) p
  have hprepared : (t.prepareRoom p).2.node? v = t.node? v := by
    obtain heq | ⟨hmem, -⟩ := hgrown.node? v
    · exact heq
    · obtain ⟨q, hq, rfl⟩ := List.mem_map.mp hmem
      exact absurd hv (hroom q hq).2
  cases hw : (t.writeText p text).1 with
  | error e => rw [writeText_of_error hw, hprepared]
  | ok _ =>
    rw [← hgrown.workingDirectory] at hp
    rw [snd_writeText_of_ok hw, node?_write_below hp hv, hprepared]

end FileTree

end NativeBuild
