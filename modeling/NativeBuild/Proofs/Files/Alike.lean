import NativeBuild.Proofs.Files.Congruence

namespace NativeBuild.FileTree

structure Alike (s t : FileTree) : Prop where
  workingDirectory : s.workingDirectory = t.workingDirectory
  kind : ∀ v, s.requireDirectory v = t.requireDirectory v

variable {r s t : FileTree} {place : Place} {p : Path} {bytes : List UInt8}

theorem requireDirectory_eq_notFound_iff : t.requireDirectory place = .error .notFound ↔ t.node? place = none := by
  rw [requireDirectory]
  split <;> simp_all

theorem requireDirectory_eq_notADirectory_iff :
    t.requireDirectory place = .error .notADirectory ↔
      ∃ bytes executable, t.node? place = some (.file bytes executable) := by
  rw [requireDirectory]
  split <;> simp_all

namespace Alike

theorem refl (t : FileTree) : Alike t t := ⟨rfl, fun _ => rfl⟩

theorem symm (h : Alike s t) : Alike t s := ⟨h.workingDirectory.symm, fun v => (h.kind v).symm⟩

theorem trans (h : Alike r s) (h' : Alike s t) : Alike r t :=
  ⟨h.workingDirectory.trans h'.workingDirectory, fun v => (h.kind v).trans (h'.kind v)⟩

theorem directory_iff (h : Alike s t) : s.node? place = some .directory ↔ t.node? place = some .directory := by
  rw [← requireDirectory_eq_ok_iff, ← requireDirectory_eq_ok_iff, h.kind]

theorem none_iff (h : Alike s t) : s.node? place = none ↔ t.node? place = none := by
  rw [← requireDirectory_eq_notFound_iff, ← requireDirectory_eq_notFound_iff, h.kind]

theorem file_iff (h : Alike s t) :
    (∃ bytes executable, s.node? place = some (.file bytes executable)) ↔
      ∃ bytes executable, t.node? place = some (.file bytes executable) := by
  rw [← requireDirectory_eq_notADirectory_iff, ← requireDirectory_eq_notADirectory_iff, h.kind]

theorem of_node? (hw : s.workingDirectory = t.workingDirectory)
    (h : ∀ v, s.node? v = t.node? v ∨
      (∃ bytes executable, s.node? v = some (.file bytes executable)) ∧
        ∃ bytes executable, t.node? v = some (.file bytes executable)) : Alike s t := by
  refine ⟨hw, fun v => ?_⟩
  obtain heq | ⟨hs, ht⟩ := h v
  · rw [requireDirectory, requireDirectory, heq]
  · rw [requireDirectory_eq_notADirectory_iff.mpr hs, requireDirectory_eq_notADirectory_iff.mpr ht]

theorem locate (h : Alike s t) (p : Path) : s.locate p = t.locate p :=
  locate_congr h.workingDirectory (fun v _ => h.kind v)

theorem isFile (h : Alike s t) (p : Path) : s.isFile p = t.isFile p := by
  rw [Bool.eq_iff_iff, isFile_iff, isFile_iff, h.locate]
  simp only [h.file_iff]

theorem isDirectory (h : Alike s t) (p : Path) : s.isDirectory p = t.isDirectory p := by
  rw [Bool.eq_iff_iff, isDirectory_iff, isDirectory_iff, h.locate]
  simp only [h.directory_iff]

theorem lookup_directory (h : Alike s t) (hs : s.lookup p = .ok .directory) : t.lookup p = .ok .directory := by
  obtain ⟨place, hp, hd⟩ := lookup_eq_directory_iff.mp hs
  exact lookup_eq_directory_iff.mpr ⟨place, h.locate p ▸ hp, h.directory_iff.mp hd⟩

theorem lookup_error (h : Alike s t) {e : FileError} (hs : s.lookup p = .error e) : t.lookup p = .error e := by
  have hlocate := h.locate p
  cases hp : s.locate p with
  | error e' =>
    rw [hp] at hlocate
    simp only [lookup, hp, bind, Except.bind] at hs
    simp only [lookup, ← hlocate, bind, Except.bind, hs]
  | ok place =>
    rw [hp] at hlocate
    simp only [lookup, hp, bind, Except.bind] at hs
    simp only [lookup, ← hlocate, bind, Except.bind]
    cases hn : s.node? place with
    | none => simpa [hn, h.none_iff.mp hn] using hs
    | some node =>
      cases node with
      | directory => simp [hn] at hs
      | file bytes executable =>
        obtain ⟨bytes', executable', hn'⟩ := h.file_iff.mp ⟨bytes, executable, hn⟩
        cases hsep : p.endsInSeparator with
        | false => simp [hn, hsep] at hs
        | true => simpa [hn, hn', hsep] using hs

theorem exists? (h : Alike s t) (p : Path) : s.exists? p = t.exists? p := by
  have hiff {s t : FileTree} (h : Alike s t) (he : s.exists? p = false) : t.exists? p = false := by
    cases hl : s.lookup p with
    | ok node => simp [FileTree.exists?, hl, Except.isOk, Except.toBool] at he
    | error e => rw [FileTree.exists?, h.lookup_error hl]; rfl
  cases he : s.exists? p with
  | false => exact (hiff h he).symm
  | true =>
    cases he' : t.exists? p with
    | true => rfl
    | false => rw [hiff h.symm he'] at he; cases he

end Alike

namespace Alike

theorem makeDirectory (h : Alike s t) (p : Path) : SameResult Alike (s.makeDirectory p) (t.makeDirectory p) := by
  have hresult : (s.makeDirectory p).1 = (t.makeDirectory p).1 := by
    rw [FileTree.makeDirectory, FileTree.makeDirectory, h.locate]
    cases t.locate p with
    | error e => rfl
    | ok place =>
      cases hn : s.node? place with
      | none => simp [hn, h.none_iff.mp hn]
      | some node =>
        cases hn' : t.node? place with
        | none => rw [h.none_iff.mpr hn'] at hn; cases hn
        | some node' => simp [hn, hn']
  refine ⟨hresult, ?_⟩
  cases hs : (s.makeDirectory p).1 with
  | error e => rwa [makeDirectory_of_error hs, makeDirectory_of_error (hresult ▸ hs)]
  | ok _ =>
    have ht : (t.makeDirectory p).1 = .ok () := hresult ▸ hs
    refine ⟨by simp [h.workingDirectory], fun v => ?_⟩
    have hkind := h.kind v
    simp only [requireDirectory, node?_makeDirectory hs, node?_makeDirectory ht, h.workingDirectory] at hkind ⊢
    by_cases hv : p.placeFrom t.workingDirectory = v
    · simp only [hv, if_true]
    · simp only [hv, if_false]
      exact hkind

theorem write (h : Alike s t) (p : Path) (bytes bytes' : List UInt8) :
    SameResult Alike (s.write p bytes) (t.write p bytes') := by
  have hok (hs : (s.write p bytes).1 = .ok ()) : (t.write p bytes').1 = .ok () := by
    obtain ⟨hsep, place, hp, hd⟩ := write_eq_ok_iff.mp hs
    exact write_eq_ok_iff.mpr ⟨hsep, place, h.locate p ▸ hp, fun hd' => hd (h.directory_iff.mpr hd')⟩
  cases hs : (s.write p bytes).1 with
  | ok _ =>
    have ht := hok hs
    refine ⟨hs.trans ht.symm, by simp [h.workingDirectory], fun v => ?_⟩
    have hkind := h.kind v
    simp only [requireDirectory, node?_write hs, node?_write ht, h.workingDirectory] at hkind ⊢
    by_cases hv : p.placeFrom t.workingDirectory = v
    · simp only [hv, if_true]
    · simp only [hv, if_false]
      exact hkind
  | error e =>
    have hresult : (s.write p bytes).1 = (t.write p bytes').1 := by
      rw [FileTree.write] at hs ⊢
      rw [FileTree.write, ← h.locate]
      cases hp : s.locate p with
      | error e => rfl
      | ok place =>
        cases hsep : p.endsInSeparator with
        | true => rfl
        | false =>
          have hd : s.node? place = some .directory := by
            cases hn : s.node? place with
            | none => simp [hp, hsep, hn] at hs
            | some node => cases node <;> simp [hp, hsep, hn] at hs ⊢
          simp [hd, h.directory_iff.mp hd]
    rw [hs] at hresult
    exact ⟨hs.trans hresult, by rwa [write_of_error hs, write_of_error hresult.symm]⟩

theorem congruence : Congruence Alike (fun _ => True) where
  exists? h _ := h.exists? _
  isDirectory h _ := h.isDirectory _
  makeDirectory h _ := h.makeDirectory _
  write bytes h _ := h.write _ bytes bytes

end Alike

end NativeBuild.FileTree
