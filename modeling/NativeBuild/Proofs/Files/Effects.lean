import NativeBuild.Proofs.Files.Resolution

namespace NativeBuild

namespace FileTree

variable {s t : FileTree} {place q : Place} {p : Path} {bytes : List UInt8}

@[simp] theorem workingDirectory_set (node : Node) :
    (t.set place node).workingDirectory = t.workingDirectory := by
  rw [set]
  split <;> rfl

@[simp] theorem workingDirectory_remove : (t.remove place).workingDirectory = t.workingDirectory := by
  rw [remove]
  split <;> rfl

@[simp] theorem workingDirectory_removeAll :
    (t.removeAll place).workingDirectory = t.workingDirectory := rfl

theorem lookup_eq_ok_iff {node : Node} :
    t.lookup p = .ok node ↔ ∃ place, t.locate p = .ok place ∧ t.node? place = some node ∧
      (node = .directory ∨ p.endsInSeparator = false) := by
  cases hp : t.locate p with
  | error e => simp [lookup, hp, bind, Except.bind]
  | ok place =>
    cases hn : t.node? place with
    | none => simp [lookup, hp, hn, bind, Except.bind]
    | some found =>
      cases found with
      | directory => cases node <;> simp [lookup, hp, hn, bind, Except.bind]
      | file bytes executable =>
        cases hs : p.endsInSeparator with
        | false => simp [lookup, hp, hn, hs, bind, Except.bind]
        | true => cases node <;> simp [lookup, hp, hn, hs, bind, Except.bind]

theorem lookup_eq_file_iff {executable : Bool} :
    t.lookup p = .ok (.file bytes executable) ↔
      p.endsInSeparator = false ∧ ∃ place, t.locate p = .ok place ∧
        t.node? place = some (.file bytes executable) := by
  rw [lookup_eq_ok_iff]
  constructor
  · rintro ⟨place, hp, hn, hdirectory | hs⟩
    · cases hdirectory
    · exact ⟨hs, place, hp, hn⟩
  · rintro ⟨hs, place, hp, hn⟩
    exact ⟨place, hp, hn, .inr hs⟩

theorem lookup_eq_directory_iff :
    t.lookup p = .ok .directory ↔ ∃ place, t.locate p = .ok place ∧ t.node? place = some .directory := by
  simp [lookup_eq_ok_iff]

theorem isFile_iff_lookup : t.isFile p = true ↔ ∃ bytes executable, t.lookup p = .ok (.file bytes executable) := by
  rw [isFile]
  split
  · next bytes executable h => simp [h]
  · next h =>
    simp only [Bool.false_eq_true, false_iff, not_exists]
    exact h

theorem isFile_iff :
    t.isFile p = true ↔ p.endsInSeparator = false ∧ ∃ place, t.locate p = .ok place ∧
      ∃ bytes executable, t.node? place = some (.file bytes executable) := by
  simp only [isFile_iff_lookup, lookup_eq_file_iff]
  constructor
  · rintro ⟨bytes, executable, hs, place, hp, hn⟩
    exact ⟨hs, place, hp, bytes, executable, hn⟩
  · rintro ⟨hs, place, hp, bytes, executable, hn⟩
    exact ⟨bytes, executable, hs, place, hp, hn⟩

theorem isDirectory_iff :
    t.isDirectory p = true ↔ ∃ place, t.locate p = .ok place ∧ t.node? place = some .directory := by
  rw [← lookup_eq_directory_iff, isDirectory]
  split
  · next h => simp [h]
  · next h =>
    simp only [Bool.false_eq_true, false_iff]
    exact h

theorem read_eq_ok_iff : t.read p = .ok bytes ↔ ∃ executable, t.lookup p = .ok (.file bytes executable) := by
  cases hp : t.lookup p with
  | error e => simp [read, hp, bind, Except.bind]
  | ok node => cases node <;> simp [read, hp, bind, Except.bind]

theorem lookup_eq_file_of {executable executable' : Bool} {bytes' : List UInt8}
    (hw : s.workingDirectory = t.workingDirectory)
    (hd : ∀ v, t.node? v = some .directory → s.node? v = some .directory)
    (ht : t.lookup p = .ok (.file bytes executable))
    (hs : s.node? (p.placeFrom t.workingDirectory) = some (.file bytes' executable')) :
    s.lookup p = .ok (.file bytes' executable') := by
  obtain ⟨hsep, place, hplace, -⟩ := lookup_eq_file_iff.mp ht
  rw [placeFrom_of_locate hplace] at hs
  exact lookup_eq_file_iff.mpr ⟨hsep, place, locate_mono hw.symm hd hplace, hs⟩

theorem isFile_mono (hw : s.workingDirectory = t.workingDirectory)
    (hd : ∀ v, t.node? v = some .directory → s.node? v = some .directory)
    (hf : ∀ v, (∃ bytes executable, t.node? v = some (.file bytes executable)) →
      ∃ bytes executable, s.node? v = some (.file bytes executable))
    (ht : t.isFile p = true) : s.isFile p = true := by
  obtain ⟨hsep, place, hplace, hnode⟩ := isFile_iff.mp ht
  exact isFile_iff.mpr ⟨hsep, place, locate_mono hw.symm hd hplace, hf place hnode⟩

theorem removeQuietly_of_not_isFile (h : t.isFile p = false) : t.removeQuietly p = t := by
  rw [removeQuietly]
  split
  · next bytes executable place hlookup _ =>
    rw [isFile_iff_lookup.mpr ⟨bytes, executable, hlookup⟩] at h
    cases h
  · rfl

theorem node?_removeQuietly :
    (t.removeQuietly p).node? q =
      if t.isFile p = true ∧ p.placeFrom t.workingDirectory = q then none else t.node? q := by
  cases hfile : t.isFile p with
  | false =>
    rw [removeQuietly_of_not_isFile hfile]
    simp
  | true =>
    obtain ⟨bytes, executable, hlookup⟩ := isFile_iff_lookup.mp hfile
    obtain ⟨-, place, hplace, hnode⟩ := lookup_eq_file_iff.mp hlookup
    have hremoved : t.removeQuietly p = t.remove place := by
      simp only [removeQuietly, hlookup, hplace]
    have hkind : t.node? place ≠ some .directory := by simp [hnode]
    rw [hremoved, node?_remove hkind, placeFrom_of_locate hplace]
    simp

@[simp] theorem workingDirectory_removeQuietly :
    (t.removeQuietly p).workingDirectory = t.workingDirectory := by
  rw [removeQuietly]
  split
  · exact workingDirectory_remove
  · rfl

theorem directory_removeQuietly {v : Place} :
    (t.removeQuietly p).node? v = some .directory ↔ t.node? v = some .directory := by
  rw [node?_removeQuietly]
  split
  · next h =>
    obtain ⟨hfile, rfl⟩ := h
    obtain ⟨-, place, hplace, bytes, executable, hnode⟩ := isFile_iff.mp hfile
    simp [placeFrom_of_locate hplace, hnode]
  · rfl

theorem isFile_of_removeQuietly {p' : Path} (h : (t.removeQuietly p').isFile p = true) : t.isFile p = true := by
  refine isFile_mono workingDirectory_removeQuietly.symm (fun v => directory_removeQuietly.mp) ?_ h
  intro v hv
  rw [node?_removeQuietly] at hv
  split at hv
  · obtain ⟨bytes, executable, hnone⟩ := hv
    cases hnone
  · exact hv

theorem not_isFile_removeQuietly {p' : Path} (h : t.isFile p = false) : (t.removeQuietly p').isFile p = false := by
  rw [← Bool.not_eq_true] at h ⊢
  exact fun hfile => h (isFile_of_removeQuietly hfile)

theorem isFile_removeQuietly_self : (t.removeQuietly p).isFile p = false := by
  rw [← Bool.not_eq_true]
  intro h
  have hfile := isFile_of_removeQuietly h
  obtain ⟨-, place, hplace, bytes, executable, hnode⟩ := isFile_iff.mp h
  have hself : p.placeFrom t.workingDirectory = place := by
    rw [← placeFrom_of_locate hplace, workingDirectory_removeQuietly]
  rw [node?_removeQuietly, if_pos ⟨hfile, hself⟩] at hnode
  cases hnode

theorem lookup_removeQuietly_of_ne {p' : Path} {executable : Bool} (h : t.lookup p = .ok (.file bytes executable))
    (hne : p'.placeFrom t.workingDirectory ≠ p.placeFrom t.workingDirectory) :
    (t.removeQuietly p').lookup p = .ok (.file bytes executable) := by
  apply lookup_eq_file_of workingDirectory_removeQuietly (fun v => directory_removeQuietly.mpr) h
  obtain ⟨-, place, hplace, hnode⟩ := lookup_eq_file_iff.mp h
  rw [node?_removeQuietly, if_neg (fun hq => hne hq.2), placeFrom_of_locate hplace]
  exact hnode

def executableAt (t : FileTree) (place : Place) : Bool :=
  match t.node? place with
  | some (.file _ executable) => executable
  | _ => false

theorem write_cases (t : FileTree) (p : Path) (bytes : List UInt8) :
    (∃ place, p.endsInSeparator = false ∧ t.locate p = .ok place ∧ t.node? place ≠ some .directory ∧
      t.write p bytes = (.ok (), t.set place (.file bytes (t.executableAt place)))) ∨
    (∃ e, t.write p bytes = (.error e, t)) ∧
      ∀ place, p.endsInSeparator = false → t.locate p = .ok place → t.node? place = some .directory := by
  rw [write]
  cases hp : t.locate p with
  | error e => exact .inr ⟨⟨e, rfl⟩, nofun⟩
  | ok place =>
    cases hs : p.endsInSeparator with
    | true => exact .inr ⟨⟨_, rfl⟩, nofun⟩
    | false =>
      cases hn : t.node? place with
      | none => exact .inl ⟨place, rfl, rfl, by simp [hn], by simp [executableAt, hn]⟩
      | some node =>
        cases node with
        | directory =>
          refine .inr ⟨⟨.isADirectory, by simp [hn]⟩, fun place' _ h => ?_⟩
          rw [← Except.ok.inj h, hn]
        | file bytes' executable => exact .inl ⟨place, rfl, rfl, by simp [hn], by simp [executableAt, hn]⟩

theorem write_eq_ok_iff :
    (t.write p bytes).1 = .ok () ↔
      p.endsInSeparator = false ∧ ∃ place, t.locate p = .ok place ∧ t.node? place ≠ some .directory := by
  obtain ⟨place, hs, hp, hd, hwrite⟩ | ⟨⟨e, hwrite⟩, hnowhere⟩ := t.write_cases p bytes
  · rw [hwrite]
    exact iff_of_true rfl ⟨hs, place, hp, hd⟩
  · rw [hwrite]
    exact iff_of_false nofun (fun ⟨hs, place, hp, hd⟩ => hd (hnowhere place hs hp))

theorem write_of_ok (h : (t.write p bytes).1 = .ok ()) :
    ∃ place, t.locate p = .ok place ∧ t.node? place ≠ some .directory ∧
      (t.write p bytes).2 = t.set place (.file bytes (t.executableAt place)) := by
  obtain ⟨place, -, hp, hd, hwrite⟩ | ⟨⟨e, hwrite⟩, -⟩ := t.write_cases p bytes
  · exact ⟨place, hp, hd, congrArg Prod.snd hwrite⟩
  · rw [hwrite] at h
    cases h

theorem node?_write (h : (t.write p bytes).1 = .ok ()) :
    (t.write p bytes).2.node? q =
      if p.placeFrom t.workingDirectory = q then some (.file bytes (t.executableAt q)) else t.node? q := by
  obtain ⟨place, hp, hd, hset⟩ := write_of_ok h
  rw [hset, node?_set (fits_of_locate hp hd _), placeFrom_of_locate hp]
  split
  · next heq => rw [heq]
  · rfl

theorem write_of_error {e : FileError} (h : (t.write p bytes).1 = .error e) : (t.write p bytes).2 = t := by
  obtain ⟨place, -, -, -, hwrite⟩ | ⟨⟨e', hwrite⟩, -⟩ := t.write_cases p bytes
  · rw [hwrite] at h
    cases h
  · rw [hwrite]

@[simp] theorem workingDirectory_write :
    (t.write p bytes).2.workingDirectory = t.workingDirectory := by
  obtain ⟨place, -, -, -, hwrite⟩ | ⟨⟨e, hwrite⟩, -⟩ := t.write_cases p bytes
  · rw [hwrite]
    exact workingDirectory_set _
  · rw [hwrite]

theorem directory_write {v : Place} (h : t.node? v = some .directory) :
    (t.write p bytes).2.node? v = some .directory := by
  cases hw : (t.write p bytes).1 with
  | error e => rwa [write_of_error hw]
  | ok _ =>
    obtain ⟨-, place, hplace, hd⟩ := write_eq_ok_iff.mp hw
    rw [node?_write hw, if_neg, h]
    rintro rfl
    rw [placeFrom_of_locate hplace] at h
    exact hd h

theorem isFile_write {p' : Path} (h : t.isFile p = true) : (t.write p' bytes).2.isFile p = true := by
  refine isFile_mono workingDirectory_write (fun v => directory_write) ?_ h
  intro v hv
  cases hw : (t.write p' bytes).1 with
  | error e => rwa [write_of_error hw]
  | ok _ =>
    rw [node?_write hw]
    split
    · exact ⟨_, _, rfl⟩
    · exact hv

theorem lookup_write_of_ne {p' : Path} {bytes' : List UInt8} {executable : Bool}
    (h : t.lookup p = .ok (.file bytes executable))
    (hne : p'.placeFrom t.workingDirectory ≠ p.placeFrom t.workingDirectory) :
    (t.write p' bytes').2.lookup p = .ok (.file bytes executable) := by
  apply lookup_eq_file_of workingDirectory_write (fun v => directory_write) h
  obtain ⟨-, place, hplace, hnode⟩ := lookup_eq_file_iff.mp h
  cases hw : (t.write p' bytes').1 with
  | error e => rwa [write_of_error hw, placeFrom_of_locate hplace]
  | ok _ =>
    rw [node?_write hw, if_neg hne, placeFrom_of_locate hplace]
    exact hnode

theorem lookup_write (h : (t.write p bytes).1 = .ok ()) :
    ∃ executable, (t.write p bytes).2.lookup p = .ok (.file bytes executable) := by
  obtain ⟨hsep, place, hplace, -⟩ := write_eq_ok_iff.mp h
  have hlocate : (t.write p bytes).2.locate p = .ok place :=
    locate_mono workingDirectory_write.symm (fun v => directory_write) hplace
  refine ⟨t.executableAt place, lookup_eq_file_iff.mpr ⟨hsep, place, hlocate, ?_⟩⟩
  rw [node?_write h, if_pos (placeFrom_of_locate hplace)]

theorem makeDirectory_cases (t : FileTree) (p : Path) :
    (∃ place, t.locate p = .ok place ∧ t.node? place = none ∧
      t.makeDirectory p = (.ok (), t.set place .directory)) ∨
    (∃ e, t.makeDirectory p = (.error e, t)) ∧ ∀ place, t.locate p = .ok place → t.node? place ≠ none := by
  rw [makeDirectory]
  cases hp : t.locate p with
  | error e => exact .inr ⟨⟨e, rfl⟩, nofun⟩
  | ok place =>
    cases hn : t.node? place with
    | none => exact .inl ⟨place, rfl, hn, by simp [hn]⟩
    | some node =>
      refine .inr ⟨⟨.alreadyExists, by simp [hn]⟩, fun place' h => ?_⟩
      rw [← Except.ok.inj h, hn]
      exact Option.some_ne_none node

theorem makeDirectory_eq_ok_iff :
    (t.makeDirectory p).1 = .ok () ↔ ∃ place, t.locate p = .ok place ∧ t.node? place = none := by
  obtain ⟨place, hp, hn, hmade⟩ | ⟨⟨e, hmade⟩, hthere⟩ := t.makeDirectory_cases p
  · rw [hmade]
    exact iff_of_true rfl ⟨place, hp, hn⟩
  · rw [hmade]
    exact iff_of_false nofun (fun ⟨place, hp, hn⟩ => hthere place hp hn)

theorem node?_makeDirectory (h : (t.makeDirectory p).1 = .ok ()) :
    (t.makeDirectory p).2.node? q =
      if p.placeFrom t.workingDirectory = q then some .directory else t.node? q := by
  obtain ⟨place, hp, hn, hmade⟩ | ⟨⟨e, hmade⟩, -⟩ := t.makeDirectory_cases p
  · have hd : t.node? place ≠ some .directory := by simp [hn]
    rw [hmade, node?_set (fits_of_locate hp hd _), placeFrom_of_locate hp]
  · rw [hmade] at h
    cases h

theorem makeDirectory_of_error {e : FileError} (h : (t.makeDirectory p).1 = .error e) :
    (t.makeDirectory p).2 = t := by
  obtain ⟨place, -, -, hmade⟩ | ⟨⟨e', hmade⟩, -⟩ := t.makeDirectory_cases p
  · rw [hmade] at h
    cases h
  · rw [hmade]

@[simp] theorem workingDirectory_makeDirectory :
    (t.makeDirectory p).2.workingDirectory = t.workingDirectory := by
  obtain ⟨place, -, -, hmade⟩ | ⟨⟨e, hmade⟩, -⟩ := t.makeDirectory_cases p
  · rw [hmade]
    exact workingDirectory_set _
  · rw [hmade]

def orThere (p : Path) : FileResult Unit → FileResult Unit
  | (.ok (), t) => (.ok (), t)
  | (.error e, t) => if t.isDirectory p then (.ok (), t) else (.error e, t)

theorem snd_orThere (p : Path) (r : FileResult Unit) : (orThere p r).2 = r.2 := by
  obtain ⟨made, t⟩ := r
  cases made with
  | ok _ => rfl
  | error e =>
    rw [orThere]
    split <;> rfl

theorem makeDirectories_of_ne {parents : List Path} (hp : p.text ≠ "")
    (h : (t.makeDirectory p).1 ≠ .error .notFound) :
    t.makeDirectories (p :: parents) = orThere p (t.makeDirectory p) := by
  rw [makeDirectories, if_neg hp]
  revert h
  obtain ⟨made, t'⟩ := t.makeDirectory p
  intro h
  cases made with
  | ok _ => rfl
  | error e => cases e <;> first | rfl | exact absurd rfl h

theorem makeDirectories_of_notFound (parents : List Path) (hp : p.text ≠ "")
    (h : (t.makeDirectory p).1 = .error .notFound) :
    t.makeDirectories (p :: parents) =
      match t.makeDirectories parents with
      | (.ok (), t) => orThere p (t.makeDirectory p)
      | (.error e, t) => (.error e, t) := by
  have hsame : t.makeDirectory p = (.error .notFound, t) := Prod.ext h (makeDirectory_of_error h)
  rw [makeDirectories, if_neg hp, hsame]
  dsimp only
  obtain ⟨made, t'⟩ := t.makeDirectories parents
  cases made with
  | error e => rfl
  | ok _ =>
    dsimp only
    obtain ⟨made, t''⟩ := t'.makeDirectory p
    cases made <;> rfl

/-- A tree has the nodes of another, and directories besides at some of the places. -/
structure Grown (places : List Place) (s t : FileTree) : Prop where
  workingDirectory : t.workingDirectory = s.workingDirectory
  node? : ∀ q, t.node? q = s.node? q ∨ q ∈ places ∧ s.node? q = none ∧ t.node? q = some .directory

namespace Grown

variable {places : List Place} {r : FileTree}

theorem refl (t : FileTree) : Grown places t t := ⟨rfl, fun _ => .inl rfl⟩

theorem trans (h : Grown places r s) (h' : Grown places s t) : Grown places r t := by
  refine ⟨h'.workingDirectory.trans h.workingDirectory, fun q => ?_⟩
  obtain hq | ⟨hmem, hnone, hd⟩ := h.node? q
  · rw [← hq]
    exact h'.node? q
  · obtain hq' | ⟨-, hnone', -⟩ := h'.node? q
    · exact .inr ⟨hmem, hnone, hq'.trans hd⟩
    · rw [hd] at hnone'
      cases hnone'

theorem mono {more : List Place} (h : Grown places s t) (hsub : places ⊆ more) : Grown more s t :=
  ⟨h.workingDirectory, fun q => (h.node? q).imp_right (fun ⟨hmem, hq⟩ => ⟨hsub hmem, hq⟩)⟩

theorem keeps (h : Grown places s t) {q : Place} {node : Node} (hq : s.node? q = some node) :
    t.node? q = some node := by
  obtain heq | ⟨-, hnone, -⟩ := h.node? q
  · rw [heq, hq]
  · rw [hq] at hnone
    cases hnone

end Grown

theorem makeDirectory_grown {places : List Place} (hp : p.placeFrom t.workingDirectory ∈ places) :
    Grown places t (t.makeDirectory p).2 := by
  cases h : (t.makeDirectory p).1 with
  | error e =>
    rw [makeDirectory_of_error h]
    exact .refl t
  | ok _ =>
    obtain ⟨place, hplace, hnone⟩ := makeDirectory_eq_ok_iff.mp h
    rw [placeFrom_of_locate hplace] at hp
    refine ⟨workingDirectory_makeDirectory, fun q => ?_⟩
    rw [node?_makeDirectory h, placeFrom_of_locate hplace]
    by_cases hq : place = q
    · subst hq
      exact .inr ⟨hp, hnone, if_pos rfl⟩
    · exact .inl (if_neg hq)

def roomPlaces (t : FileTree) (ps : List Path) : List Place := ps.map (·.placeFrom t.workingDirectory)

theorem makeDirectories_grown (ps : List Path) : Grown (t.roomPlaces ps) t (t.makeDirectories ps).2 := by
  induction ps generalizing t with
  | nil => exact .refl t
  | cons p parents ih =>
    by_cases htext : p.text = ""
    · rw [makeDirectories, if_pos htext]
      exact .refl t
    · have hp : p.placeFrom t.workingDirectory ∈ t.roomPlaces (p :: parents) := List.mem_cons_self
      have hparents := (ih (t := t)).mono (List.subset_cons_self (p.placeFrom t.workingDirectory) _)
      by_cases hmissing : (t.makeDirectory p).1 = .error .notFound
      · rw [makeDirectories_of_notFound _ htext hmissing]
        revert hparents
        obtain ⟨made, t'⟩ := t.makeDirectories parents
        intro hparents
        cases made with
        | error e => exact hparents
        | ok _ =>
          rw [← hparents.workingDirectory] at hp
          show Grown _ t (orThere p (t'.makeDirectory p)).2
          rw [snd_orThere]
          exact hparents.trans (makeDirectory_grown hp)
      · rw [makeDirectories_of_ne htext hmissing, snd_orThere]
        exact makeDirectory_grown hp

theorem ensureDirectory_grown (p : Path) :
    Grown (t.roomPlaces (ancestry p)) t (t.ensureDirectory p).2 := by
  rw [ensureDirectory]
  split
  · exact .refl t
  · exact makeDirectories_grown _

def room? (p : Path) : Option Path := p.parent?.filter (fun parent => parent.text ≠ "")

def roomFor (p : Path) : List Path := ((room? p).map ancestry).getD []

theorem ancestry_eq_cons (p : Path) : ∃ parents, ancestry p = p :: parents := by
  rw [ancestry, ancestry.go]
  split
  · exact ⟨_, rfl⟩
  · exact ⟨[], rfl⟩

theorem mem_ancestry_self (p : Path) : p ∈ ancestry p := by
  obtain ⟨parents, h⟩ := ancestry_eq_cons p
  rw [h]
  exact List.mem_cons_self

def prepareRoom (t : FileTree) (p : Path) : Except FileFailure Unit × FileTree :=
  match room? p with
  | some parent => t.makeRoom parent
  | none => (.ok (), t)

theorem writeText_eq (text : String) :
    t.writeText p text =
      match t.prepareRoom p with
      | (.error e, t) => (.error e, t)
      | (.ok (), t) => during ("failed to write file: " ++ p.text) (t.write p (Text.encodeUtf8 text.toList)) := by
  rw [writeText, prepareRoom, room?]
  cases p.parent? with
  | none => rfl
  | some parent =>
    by_cases h : parent.text = ""
    · simp [Option.filter, h]
    · cases hroom : t.makeRoom parent with
      | mk made t' => cases made <;> simp [Option.filter, h, hroom]

theorem snd_during {α : Type} (doing : String) (r : FileResult α) : (during doing r).2 = r.2 := by
  obtain ⟨result, t⟩ := r
  cases result <;> rfl

theorem during_eq_ok_iff {α : Type} {doing : String} {r : FileResult α} {a : α} :
    (during doing r).1 = .ok a ↔ r.1 = .ok a := by
  obtain ⟨result, t⟩ := r
  cases result <;> simp [during]

theorem prepareRoom_grown (p : Path) : Grown (t.roomPlaces (roomFor p)) t (t.prepareRoom p).2 := by
  rw [prepareRoom, roomFor]
  cases room? p with
  | none => exact .refl t
  | some parent =>
    show Grown (t.roomPlaces (ancestry parent)) t (during _ (t.ensureDirectory parent)).2
    rw [snd_during]
    exact ensureDirectory_grown parent

theorem writeText_of_ok {text : String} (h : (t.writeText p text).1 = .ok ()) :
    (t.prepareRoom p).1 = .ok () ∧
      (t.prepareRoom p).2.write p (Text.encodeUtf8 text.toList) = (.ok (), (t.writeText p text).2) := by
  rw [writeText_eq] at h ⊢
  cases hroom : t.prepareRoom p with
  | mk made t' =>
    rw [hroom] at h
    cases made with
    | error e => cases h
    | ok _ =>
      have hwritten := during_eq_ok_iff.mp h
      exact ⟨rfl, Prod.ext hwritten (snd_during _ _).symm⟩

theorem writeText_of_error {text : String} {e : FileFailure} (h : (t.writeText p text).1 = .error e) :
    (t.writeText p text).2 = (t.prepareRoom p).2 := by
  rw [writeText_eq] at h ⊢
  cases hroom : t.prepareRoom p with
  | mk made t' =>
    rw [hroom] at h
    cases made with
    | error e' => rfl
    | ok _ =>
      dsimp only at h ⊢
      cases hw : (t'.write p (Text.encodeUtf8 text.toList)).1 with
      | ok _ =>
        rw [during_eq_ok_iff.mpr hw] at h
        cases h
      | error e' => rw [snd_during, write_of_error hw]

theorem snd_writeText_of_ok {text : String} (h : (t.writeText p text).1 = .ok ()) :
    (t.writeText p text).2 = ((t.prepareRoom p).2.write p (Text.encodeUtf8 text.toList)).2 :=
  (congrArg Prod.snd (writeText_of_ok h).2).symm

theorem isFile_grown {places : List Place} (hgrown : Grown places s t) (h : s.isFile p = true) :
    t.isFile p = true :=
  isFile_mono hgrown.workingDirectory (fun _ hv => hgrown.keeps hv)
    (fun _ ⟨bytes, executable, hv⟩ => ⟨bytes, executable, hgrown.keeps hv⟩) h

theorem lookup_grown {places : List Place} (hgrown : Grown places s t) {executable : Bool}
    (h : s.lookup p = .ok (.file bytes executable)) : t.lookup p = .ok (.file bytes executable) := by
  apply lookup_eq_file_of hgrown.workingDirectory (fun v => hgrown.keeps) h
  obtain ⟨-, place, hplace, hnode⟩ := lookup_eq_file_iff.mp h
  rw [placeFrom_of_locate hplace]
  exact hgrown.keeps hnode

theorem isFile_writeText {p' : Path} {text : String} (h : t.isFile p = true) :
    (t.writeText p' text).2.isFile p = true := by
  have hroom := isFile_grown (prepareRoom_grown p') h
  cases hw : (t.writeText p' text).1 with
  | error e => rwa [writeText_of_error hw]
  | ok _ =>
    rw [snd_writeText_of_ok hw]
    exact isFile_write hroom

theorem directory_writeText {v : Place} {text : String} (h : t.node? v = some .directory) :
    (t.writeText p text).2.node? v = some .directory := by
  have hroom := (prepareRoom_grown (t := t) p).keeps h
  cases hw : (t.writeText p text).1 with
  | error e => rwa [writeText_of_error hw]
  | ok _ =>
    rw [snd_writeText_of_ok hw]
    exact directory_write hroom

theorem lookup_writeText {text : String} (h : (t.writeText p text).1 = .ok ()) :
    ∃ executable, (t.writeText p text).2.lookup p = .ok (.file (Text.encodeUtf8 text.toList) executable) := by
  rw [snd_writeText_of_ok h]
  exact lookup_write (congrArg Prod.fst (writeText_of_ok h).2)

theorem lookup_writeText_of_ne {p' : Path} {text : String} {executable : Bool}
    (h : t.lookup p = .ok (.file bytes executable))
    (hne : p'.placeFrom t.workingDirectory ≠ p.placeFrom t.workingDirectory) :
    (t.writeText p' text).2.lookup p = .ok (.file bytes executable) := by
  have hgrown := prepareRoom_grown (t := t) p'
  have hroom := lookup_grown hgrown h
  cases hw : (t.writeText p' text).1 with
  | error e => rwa [writeText_of_error hw]
  | ok _ =>
    rw [snd_writeText_of_ok hw]
    rw [← hgrown.workingDirectory] at hne
    exact lookup_write_of_ne hroom hne

theorem workingDirectory_writeText {text : String} :
    (t.writeText p text).2.workingDirectory = t.workingDirectory := by
  have hroom := (prepareRoom_grown (t := t) p).workingDirectory
  cases hw : (t.writeText p text).1 with
  | error e => rw [writeText_of_error hw, hroom]
  | ok _ =>
    rw [snd_writeText_of_ok hw, workingDirectory_write, hroom]

end FileTree

end NativeBuild
