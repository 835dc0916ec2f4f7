import NativeBuild.Patch
import NativeBuild.Proofs.Files.Alike
import Mathlib.Data.List.TakeWhile

namespace NativeBuild

namespace Patch

def settled (bytes : List UInt8) : List UInt8 := (patched? bytes).getD bytes

variable {bytes : List UInt8}

theorem settled_of_patchable {b : UInt8} (h : bytes[flagOffset]? = some b) (hb : isPatchable b = true) :
    settled bytes = bytes.set flagOffset 0 := by
  simp [settled, patched?, h, hb]

theorem settled_of_not_patchable (h : ∀ b, bytes[flagOffset]? = some b → isPatchable b = false) :
    settled bytes = bytes := by
  rw [settled, patched?]
  split
  · next b hb => simp [h b hb]
  · rfl

theorem settled_not_patchable {b : UInt8} (h : (settled bytes)[flagOffset]? = some b) :
    isPatchable b = false := by
  by_cases hex : ∃ a, bytes[flagOffset]? = some a ∧ isPatchable a = true
  · obtain ⟨a, ha, hpatchable⟩ := hex
    have hlength : flagOffset < bytes.length := (List.getElem?_eq_some_iff.mp ha).1
    rw [settled_of_patchable ha hpatchable, List.getElem?_set_self hlength] at h
    obtain rfl := Option.some.inj h
    rfl
  · have hsame : settled bytes = bytes := by
      apply settled_of_not_patchable
      intro a ha
      cases hp : isPatchable a with
      | false => rfl
      | true => exact absurd ⟨a, ha, hp⟩ hex
    rw [hsame] at h
    cases hp : isPatchable b with
    | false => rfl
    | true => exact absurd ⟨b, h, hp⟩ hex

theorem settled_settled : settled (settled bytes) = settled bytes :=
  settled_of_not_patchable (fun _ => settled_not_patchable)

end Patch

def Node.settled : Node → Node
  | .directory => .directory
  | .file bytes executable => .file (Patch.settled bytes) executable

theorem Node.settled_settled (node : Node) : node.settled.settled = node.settled := by
  cases node with
  | directory => rfl
  | file bytes executable => simp only [Node.settled, Patch.settled_settled]

namespace Patch

open FileTree

variable {s t : FileTree} {p : Path} {ps : List Path} {q : Place}

theorem apply_of_file {bytes : List UInt8} {executable : Bool} (h : t.lookup p = .ok (.file bytes executable)) :
    (∃ changed, (apply t p).1 = .ok changed) ∧
      ∀ q, (apply t p).2.node? q =
        if p.placeFrom t.workingDirectory = q then (t.node? q).map Node.settled else t.node? q := by
  obtain ⟨-, place, hp, hn⟩ := lookup_eq_file_iff.mp h
  have hd : t.node? place ≠ some .directory := by simp [hn]
  rw [placeFrom_of_locate hp]
  cases hnew : patched? bytes with
  | none =>
    have happly : apply t p = (.ok false, t) := by simp [apply, h, hp, hnew]
    rw [happly]
    refine ⟨⟨false, rfl⟩, fun q => ?_⟩
    by_cases hq : place = q
    · simp [← hq, hn, Node.settled, settled, hnew]
    · simp [hq]
  | some new =>
    have happly : apply t p = (.ok true, t.set place (.file new executable)) := by simp [apply, h, hp, hnew]
    rw [happly]
    refine ⟨⟨true, rfl⟩, fun q => ?_⟩
    dsimp only
    rw [node?_set (fits_of_locate hp hd _)]
    by_cases hq : place = q
    · simp [← hq, hn, Node.settled, settled, hnew]
    · simp [hq]

theorem apply_of_not_isFile (h : t.isFile p = false) :
    ∃ e, apply t p = (.error ⟨"failed to open " ++ p.text ++ " for patching", e⟩, t) ∧
      (t.lookup p = .error e ∨ t.lookup p = .ok .directory ∧ e = .isADirectory) := by
  cases hp : t.lookup p with
  | error e => exact ⟨e, by simp [apply, hp], .inl rfl⟩
  | ok node =>
    cases node with
    | directory => exact ⟨.isADirectory, by simp [apply, hp], .inr ⟨rfl, rfl⟩⟩
    | file bytes executable =>
      rw [isFile_iff_lookup.mpr ⟨bytes, executable, hp⟩] at h
      cases h

theorem node?_apply :
    (apply t p).2.node? q =
      if t.isFile p = true ∧ p.placeFrom t.workingDirectory = q then (t.node? q).map Node.settled
      else t.node? q := by
  cases h : t.isFile p with
  | true =>
    obtain ⟨bytes, executable, hlookup⟩ := isFile_iff_lookup.mp h
    rw [(apply_of_file hlookup).2 q]
    simp
  | false =>
    obtain ⟨e, happly, -⟩ := apply_of_not_isFile h
    rw [happly]
    simp

theorem workingDirectory_apply : (apply t p).2.workingDirectory = t.workingDirectory := by
  rw [apply]
  split
  · rfl
  · rfl
  · split
    · exact workingDirectory_set _
    · rfl
  · rfl

theorem apply_alike : Alike (apply t p).2 t := by
  apply Alike.of_node? workingDirectory_apply
  intro v
  rw [node?_apply]
  split
  · cases hn : t.node? v with
    | none => exact .inl rfl
    | some node =>
      cases node with
      | directory => exact .inl rfl
      | file bytes executable => exact .inr ⟨⟨_, _, rfl⟩, bytes, executable, rfl⟩
  · exact .inl rfl

@[simp] theorem applyAll_nil : applyAll t [] = (.ok (), t) := rfl

theorem applyAll_cons : applyAll t (p :: ps) =
    match apply t p with
    | (.ok _, t) => applyAll t ps
    | (.error e, t) => (.error e, t) := rfl

theorem applyAll_cons_of_isFile (h : t.isFile p = true) :
    applyAll t (p :: ps) = applyAll (apply t p).2 ps := by
  obtain ⟨bytes, executable, hlookup⟩ := isFile_iff_lookup.mp h
  obtain ⟨⟨changed, hchanged⟩, -⟩ := apply_of_file hlookup
  have happly : apply t p = (.ok changed, (apply t p).2) := Prod.ext hchanged rfl
  rw [applyAll_cons, happly]

theorem applyAll_cons_of_not_isFile (h : t.isFile p = false) (ps : List Path) :
    ∃ e, applyAll t (p :: ps) = (.error e, t) := by
  obtain ⟨e, happly, -⟩ := apply_of_not_isFile h
  exact ⟨_, by rw [applyAll_cons, happly]⟩

theorem applyAll_eq_ok_iff : (applyAll t ps).1 = .ok () ↔ ∀ p ∈ ps, t.isFile p = true := by
  induction ps generalizing t with
  | nil => simp
  | cons p ps ih =>
    rw [List.forall_mem_cons]
    cases h : t.isFile p with
    | true =>
      rw [applyAll_cons_of_isFile h, ih]
      simp only [apply_alike.isFile, true_and]
    | false =>
      obtain ⟨e, happly⟩ := applyAll_cons_of_not_isFile h ps
      simp [happly]

theorem node?_applyAll :
    (applyAll t ps).2.node? q =
      if q ∈ (ps.takeWhile t.isFile).map (·.placeFrom t.workingDirectory) then (t.node? q).map Node.settled
      else t.node? q := by
  induction ps generalizing t with
  | nil => simp
  | cons p ps ih =>
    cases h : t.isFile p with
    | false =>
      obtain ⟨e, happly⟩ := applyAll_cons_of_not_isFile h ps
      simp [happly, h]
    | true =>
      have hfiles : (apply t p).2.isFile = t.isFile := funext apply_alike.isFile
      rw [applyAll_cons_of_isFile h, ih, node?_apply, hfiles, workingDirectory_apply,
        List.takeWhile_cons_of_pos h, List.map_cons]
      by_cases hq : p.placeFrom t.workingDirectory = q
      · have hidem : Node.settled ∘ Node.settled = Node.settled := funext Node.settled_settled
        simp only [List.mem_cons, h, hq, and_self, if_true, true_or, Option.map_map, hidem, ite_self]
      · simp only [List.mem_cons, hq, and_false, if_false, Ne.symm hq, false_or]

theorem applyAll_alike : Alike (applyAll t ps).2 t := by
  induction ps generalizing t with
  | nil => exact .refl t
  | cons p ps ih =>
    cases h : t.isFile p with
    | true =>
      rw [applyAll_cons_of_isFile h]
      exact ih.trans apply_alike
    | false =>
      obtain ⟨e, happly⟩ := applyAll_cons_of_not_isFile h ps
      rw [happly]
      exact .refl t

theorem lookup_applyAll_of_ne {bytes : List UInt8} {executable : Bool}
    (h : t.lookup p = .ok (.file bytes executable))
    (hne : ∀ p' ∈ ps, p'.placeFrom t.workingDirectory ≠ p.placeFrom t.workingDirectory) :
    (applyAll t ps).2.lookup p = .ok (.file bytes executable) := by
  have halike : Alike (applyAll t ps).2 t := applyAll_alike
  apply lookup_eq_file_of halike.workingDirectory (fun v => halike.directory_iff.mpr) h
  obtain ⟨-, place, hplace, hnode⟩ := lookup_eq_file_iff.mp h
  rw [node?_applyAll, if_neg, placeFrom_of_locate hplace]
  · exact hnode
  · intro hmem
    obtain ⟨p', hp', heq⟩ := List.mem_map.mp hmem
    exact hne p' ((List.takeWhile_sublist _).subset hp') heq

theorem read_applyAll_of_mem_takeWhile (hp : p ∈ ps.takeWhile t.isFile) :
    ∃ bytes, (applyAll t ps).2.read p = .ok (settled bytes) := by
  obtain ⟨hsep, place, hplace, bytes, executable, hnode⟩ := isFile_iff.mp (List.mem_takeWhile_imp hp)
  have hmem : place ∈ (ps.takeWhile t.isFile).map (·.placeFrom t.workingDirectory) :=
    List.mem_map.mpr ⟨p, hp, placeFrom_of_locate hplace⟩
  have hlocate : (applyAll t ps).2.locate p = .ok place := (applyAll_alike.locate p).trans hplace
  have hsettled : (applyAll t ps).2.node? place = some (.file (settled bytes) executable) := by
    rw [node?_applyAll, if_pos hmem, hnode]
    rfl
  exact ⟨bytes, read_eq_ok_iff.mpr ⟨executable, lookup_eq_file_iff.mpr ⟨hsep, place, hlocate, hsettled⟩⟩⟩

theorem read_applyAll (hall : ∀ p ∈ ps, t.isFile p = true) (hp : p ∈ ps) :
    ∃ bytes, (applyAll t ps).2.read p = .ok (settled bytes) := by
  apply read_applyAll_of_mem_takeWhile
  rwa [List.takeWhile_eq_self_iff.mpr hall]

theorem applyAll_fst_congr (h : Alike s t) : (applyAll s ps).1 = (applyAll t ps).1 := by
  induction ps generalizing s t with
  | nil => rfl
  | cons p ps ih =>
    have hfile := h.isFile p
    cases ht : t.isFile p with
    | true =>
      rw [applyAll_cons_of_isFile ht, applyAll_cons_of_isFile (hfile.trans ht)]
      exact ih (apply_alike.trans (h.trans apply_alike.symm))
    | false =>
      obtain ⟨e, happly, hcause⟩ := apply_of_not_isFile ht
      obtain ⟨e', happly', hcause'⟩ := apply_of_not_isFile (hfile.trans ht)
      have he : e' = e := by
        obtain herror | ⟨hdirectory, rfl⟩ := hcause
        · have hs := h.symm.lookup_error herror
          obtain herror' | ⟨hdirectory', -⟩ := hcause'
          · exact Except.error.inj (herror'.symm.trans hs)
          · rw [hs] at hdirectory'
            cases hdirectory'
        · have hs := h.symm.lookup_directory hdirectory
          obtain herror' | ⟨-, rfl⟩ := hcause'
          · rw [hs] at herror'
            cases herror'
          · rfl
      rw [applyAll_cons, applyAll_cons, happly, happly', he]

end Patch

end NativeBuild
