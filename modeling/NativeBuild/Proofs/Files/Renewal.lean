import NativeBuild.Proofs.Files.Patching
import NativeBuild.Proofs.Files.Straight

namespace NativeBuild

namespace FileTree

variable {s t y : FileTree} {p : Path} {ps targets : List Path} {q : Place}

def removeEach (t : FileTree) (ps : List Path) : FileTree := ps.foldl removeQuietly t

@[simp] theorem workingDirectory_removeEach : (t.removeEach ps).workingDirectory = t.workingDirectory := by
  induction ps generalizing t with
  | nil => rfl
  | cons p ps ih => exact ih.trans workingDirectory_removeQuietly

theorem node?_removeEach :
    (t.removeEach ps).node? q =
      if ∃ p ∈ ps, t.isFile p = true ∧ p.placeFrom t.workingDirectory = q then none else t.node? q := by
  induction ps generalizing t with
  | nil => simp [removeEach]
  | cons p ps ih =>
    show ((t.removeQuietly p).removeEach ps).node? q = _
    rw [ih, workingDirectory_removeQuietly, node?_removeQuietly]
    by_cases hp : t.isFile p = true ∧ p.placeFrom t.workingDirectory = q
    · have hmem : ∃ p' ∈ p :: ps, t.isFile p' = true ∧ p'.placeFrom t.workingDirectory = q :=
        ⟨p, List.mem_cons_self, hp⟩
      rw [if_pos hp, if_pos hmem, ite_self]
    · rw [if_neg hp]
      have hiff : (∃ p' ∈ ps, (t.removeQuietly p).isFile p' = true ∧ p'.placeFrom t.workingDirectory = q) ↔
          ∃ p' ∈ p :: ps, t.isFile p' = true ∧ p'.placeFrom t.workingDirectory = q := by
        constructor
        · rintro ⟨p', hp', hfile, hplace⟩
          exact ⟨p', List.mem_cons_of_mem _ hp', isFile_of_removeQuietly hfile, hplace⟩
        · rintro ⟨p', hp', hfile, hplace⟩
          obtain rfl | hp' := List.mem_cons.mp hp'
          · exact absurd ⟨hfile, hplace⟩ hp
          · refine ⟨p', hp', ?_, hplace⟩
            cases hsame : t.isFile p with
            | false => rwa [removeQuietly_of_not_isFile hsame]
            | true =>
              have hne : p.placeFrom t.workingDirectory ≠ p'.placeFrom t.workingDirectory :=
                fun heq => hp ⟨hsame, heq.trans hplace⟩
              obtain ⟨bytes, executable, hlookup⟩ := isFile_iff_lookup.mp hfile
              exact isFile_iff_lookup.mpr ⟨bytes, executable, lookup_removeQuietly_of_ne hlookup hne⟩
      simp only [hiff]

theorem directory_removeEach {v : Place} :
    (t.removeEach ps).node? v = some .directory ↔ t.node? v = some .directory := by
  induction ps generalizing t with
  | nil => rfl
  | cons p ps ih => exact ih.trans directory_removeQuietly

theorem executableAt_of_node? {bytes : List UInt8} {executable : Bool}
    (h : t.node? q = some (.file bytes executable)) : t.executableAt q = executable := by
  rw [executableAt, h]

@[simp] theorem executableAt_write {bytes : List UInt8} : (t.write p bytes).2.executableAt q = t.executableAt q := by
  cases hw : (t.write p bytes).1 with
  | error e => rw [write_of_error hw]
  | ok _ =>
    by_cases hq : p.placeFrom t.workingDirectory = q
    · apply executableAt_of_node?
      rw [node?_write hw, if_pos hq]
    · rw [executableAt, node?_write hw, if_neg hq, executableAt]

theorem write_eq_ok_of {bytes bytes' : List UInt8} (h : (s.write p bytes).1 = .ok ())
    (hw : t.workingDirectory = s.workingDirectory)
    (hd : ∀ v, s.node? v = some .directory → t.node? v = some .directory)
    (hno : t.node? (p.placeFrom s.workingDirectory) ≠ some .directory) : (t.write p bytes').1 = .ok () := by
  obtain ⟨hsep, place, hplace, -⟩ := write_eq_ok_iff.mp h
  rw [placeFrom_of_locate hplace] at hno
  exact write_eq_ok_iff.mpr ⟨hsep, place, locate_mono hw.symm hd hplace, hno⟩

theorem Grown.eq_of_alike {places : List Place} (h : Grown places s t) (halike : Alike s t) : t = s := by
  refine ext_node? h.workingDirectory (fun v => ?_)
  obtain heq | ⟨-, hnone, hdirectory⟩ := h.node? v
  · exact heq
  · rw [halike.none_iff.mp hnone] at hdirectory
    cases hdirectory

/-- Files were patched, and some of those at certain places taken away. At these places files are written anew with what
they held before the patch, and nothing else changes. -/
structure Renewed (content : Place → Option (List UInt8)) (targets ps : List Path) (s y t : FileTree) : Prop where
  left : y = (Patch.applyAll s targets).2.removeEach ps
  removed : ∀ p ∈ ps, content (p.placeFrom s.workingDirectory) ≠ none
  workingDirectory : t.workingDirectory = s.workingDirectory
  held : ∀ v bytes, content v = some bytes → ∃ executable, s.node? v = some (.file bytes executable)
  written : ∀ v bytes, content v = some bytes → t.node? v = some (.file bytes (y.executableAt v))
  others : ∀ v, content v = none → t.node? v = y.node? v

namespace Renewed

variable {content : Place → Option (List UInt8)} {v : Place}

theorem node?_left (h : Renewed content targets ps s y t) (hv : content v = none) :
    y.node? v = (Patch.applyAll s targets).2.node? v := by
  have hpatched : Alike (Patch.applyAll s targets).2 s := Patch.applyAll_alike
  rw [h.left, node?_removeEach, if_neg]
  rintro ⟨p, hp, -, rfl⟩
  rw [hpatched.workingDirectory] at hv
  exact h.removed p hp hv

theorem alike (h : Renewed content targets ps s y t) : Alike t s := by
  have hpatched : Alike (Patch.applyAll s targets).2 s := Patch.applyAll_alike
  refine ⟨h.workingDirectory, fun v => ?_⟩
  cases hv : content v with
  | some bytes =>
    obtain ⟨executable, hs⟩ := h.held v bytes hv
    rw [requireDirectory_eq_notADirectory_iff.mpr ⟨_, _, h.written v bytes hv⟩,
      requireDirectory_eq_notADirectory_iff.mpr ⟨_, _, hs⟩]
  | none => rw [← hpatched.kind, requireDirectory, requireDirectory, h.others v hv, h.node?_left hv]

theorem node?_patched (h : Renewed content targets ps s y t)
    (hkept : y.node? v = (Patch.applyAll s targets).2.node? v) :
    (Patch.applyAll t targets).2.node? v = y.node? v := by
  have hlist : targets.takeWhile t.isFile = targets.takeWhile s.isFile := by rw [funext h.alike.isFile]
  rw [Patch.node?_applyAll, hlist, h.workingDirectory, hkept, Patch.node?_applyAll]
  cases hv : content v with
  | some bytes =>
    -- what was written is written again with the right to be executed that it had
    obtain ⟨executable, hs⟩ := h.held v bytes hv
    have hfile : ∃ bytes', y.node? v = some (.file bytes' executable) := by
      rw [hkept, Patch.node?_applyAll, hs]
      split
      · exact ⟨_, rfl⟩
      · exact ⟨bytes, rfl⟩
    obtain ⟨bytes', hfile⟩ := hfile
    rw [h.written v bytes hv, hs, executableAt_of_node? hfile]
  | none =>
    have hidem : Node.settled ∘ Node.settled = Node.settled := funext Node.settled_settled
    rw [h.others v hv, hkept, Patch.node?_applyAll]
    split
    · rw [Option.map_map, hidem]
    · rfl

theorem patch_again (h : Renewed content targets ps s y t) :
    (Patch.applyAll t targets).2.removeEach ps = y := by
  have hagain : Alike (Patch.applyAll t targets).2 (Patch.applyAll s targets).2 :=
    (Patch.applyAll_alike.trans h.alike).trans Patch.applyAll_alike.symm
  have hremoved (v : Place) :
      (∃ p ∈ ps, (Patch.applyAll t targets).2.isFile p = true ∧
          p.placeFrom (Patch.applyAll t targets).2.workingDirectory = v) ↔
        ∃ p ∈ ps, (Patch.applyAll s targets).2.isFile p = true ∧
          p.placeFrom (Patch.applyAll s targets).2.workingDirectory = v := by
    simp only [hagain.isFile, hagain.workingDirectory]
  apply ext_node?
  · rw [workingDirectory_removeEach, hagain.workingDirectory, h.left, workingDirectory_removeEach]
  · intro v
    rw [node?_removeEach]
    simp only [hremoved]
    split
    · next hgone => rw [h.left, node?_removeEach, if_pos hgone]
    · next hkept =>
      have hyv : y.node? v = (Patch.applyAll s targets).2.node? v := by
        rw [h.left, node?_removeEach, if_neg hkept]
      exact h.node?_patched hyv

end Renewed

theorem write_renewed {object : Path} {bytes : List UInt8} {places : List Place}
    (hobject : (s.write object bytes).1 = .ok ()) (hgrown : Grown places (s.write object bytes).2 t)
    (hps : ∀ p ∈ ps, p = object) (hy : y = t.removeEach ps) :
    (y.write object bytes).1 = .ok () ∧
      Renewed (fun v => if object.placeFrom s.workingDirectory = v then some bytes else none) [] ps t y
        (y.write object bytes).2 := by
  have hcwd : t.workingDirectory = s.workingDirectory := hgrown.workingDirectory.trans workingDirectory_write
  have hw : y.workingDirectory = s.workingDirectory := by rw [hy, workingDirectory_removeEach, hcwd]
  have hnode : ∃ executable, t.node? (object.placeFrom s.workingDirectory) = some (.file bytes executable) := by
    have hwritten := node?_write (q := object.placeFrom s.workingDirectory) hobject
    rw [if_pos rfl] at hwritten
    exact ⟨_, hgrown.keeps hwritten⟩
  have hagain : (y.write object bytes).1 = .ok () := by
    refine write_eq_ok_of hobject hw (fun v hv => ?_) ?_
    · rw [hy, directory_removeEach]
      exact hgrown.keeps (directory_write hv)
    · obtain ⟨executable, hfile⟩ := hnode
      rw [hy, ne_eq, directory_removeEach, hfile]
      nofun
  have hwritten (v : Place) := node?_write (q := v) hagain
  rw [hw] at hwritten
  refine ⟨hagain, ?_⟩
  constructor
  case left => exact hy
  case removed =>
    intro p hp
    rw [hps p hp, hcwd, if_pos rfl]
    nofun
  case workingDirectory => rw [workingDirectory_write, hw, hcwd]
  case held =>
    intro v bytes' hv
    obtain ⟨rfl, hbytes⟩ := Option.ite_none_right_eq_some.mp hv
    rwa [← Option.some.inj hbytes]
  case written =>
    intro v bytes' hv
    obtain ⟨hplace, hbytes⟩ := Option.ite_none_right_eq_some.mp hv
    rw [hwritten, if_pos hplace, ← Option.some.inj hbytes]
  case others =>
    intro v hv
    rw [hwritten, if_neg]
    intro hplace
    rw [if_pos hplace] at hv
    cases hv

theorem writeText_of_written {text : String} (h : (s.writeText p text).1 = .ok ())
    (hw : t.workingDirectory = s.workingDirectory)
    (hd : ∀ v, (s.writeText p text).2.node? v = some .directory → t.node? v = some .directory)
    (hno : t.node? (p.placeFrom s.workingDirectory) ≠ some .directory) :
    (t.writeText p text).1 = .ok () ∧ ∀ v, (t.writeText p text).2.node? v =
      if p.placeFrom s.workingDirectory = v then some (.file (Text.encodeUtf8 text.toList) (t.executableAt v))
      else t.node? v := by
  obtain ⟨-, hok⟩ := writeText_of_ok h
  have hroom := (prepareRoom_grown (t := s) p).workingDirectory
  have htext : (t.write p (Text.encodeUtf8 text.toList)).1 = .ok () := by
    refine write_eq_ok_of (congrArg Prod.fst hok) (hw.trans hroom.symm) (fun v hv => hd v ?_) (hroom ▸ hno)
    rw [snd_writeText_of_ok h]
    exact directory_write hv
  obtain ⟨-, place, hplace, -⟩ := write_eq_ok_iff.mp htext
  rw [writeText_of_locate hplace]
  refine ⟨during_eq_ok_iff.mpr htext, fun v => ?_⟩
  rw [snd_during, node?_write htext, hw]

theorem writeText_again_of_alike {text : String} {e : FileFailure} (h : (s.writeText p text).1 = .error e)
    (halike : Alike t (s.writeText p text).2) :
    ∃ e', (s.writeText p text).2.writeText p text = (.error e', (s.writeText p text).2) ∧
      t.writeText p text = (.error e', t) ∧ ((s.prepareRoom p).1 = .ok () → e' = e) := by
  obtain ⟨e', hfails, hreason⟩ := writeText_again h
  have hsame : SameResult Alike (t.writeText p text) ((s.writeText p text).2.writeText p text) :=
    Alike.congruence.writeText halike trivial (fun _ _ => trivial) text
  rw [hfails] at hsame
  have hgrown := prepareRoom_grown (t := t) p
  rw [← writeText_of_error hsame.result] at hgrown
  have hnothing : (t.writeText p text).2 = t := hgrown.eq_of_alike (halike.trans hsame.files.symm)
  exact ⟨e', hfails, Prod.ext hsame.result hnothing, hreason⟩

end FileTree

open FileTree

structure Order where
  object : Path
  bytes : List UInt8
  exports : Option (Path × String)
  targets : List Path

namespace Order

inductive Fault where
  | emission (e : FileFailure)
  | patch (e : FileFailure)

def emit (o : Order) (t : FileTree) : Except FileFailure Unit × FileTree :=
  match o.exports with
  | none => (.ok (), t)
  | some (p, text) => t.writeText p text

def finish (o : Order) (t : FileTree) : Except Fault Unit × FileTree :=
  match o.emit t with
  | (.error e, t) => (.error (.emission e), t)
  | (.ok (), t) =>
    match Patch.applyAll t o.targets with
    | (.error e, t) => (.error (.patch e), t)
    | (.ok (), t) => (.ok (), t)

def fill (o : Order) (t : FileTree) : Except Fault Unit × FileTree := o.finish (t.write o.object o.bytes).2

def content (o : Order) (cwd v : Place) : Option (List UInt8) :=
  match o.exports.filter (fun e => e.1.placeFrom cwd = v) with
  | some (_, text) => some (Text.encodeUtf8 text.toList)
  | none => if o.object.placeFrom cwd = v then some o.bytes else none

variable {o : Order} {x y : FileTree} {ps : List Path}

theorem fill_of_emitted (h : (o.emit (x.write o.object o.bytes).2).1 = .ok ()) :
    o.fill x = ((Patch.applyAll (o.emit (x.write o.object o.bytes).2).2 o.targets).1.mapError .patch,
      (Patch.applyAll (o.emit (x.write o.object o.bytes).2).2 o.targets).2) := by
  have hpair : o.emit (x.write o.object o.bytes).2 = (.ok (), (o.emit (x.write o.object o.bytes).2).2) := Prod.ext h rfl
  rw [fill, finish, hpair]
  dsimp only
  generalize Patch.applyAll (o.emit (x.write o.object o.bytes).2).2 o.targets = r
  obtain ⟨result, t⟩ := r
  cases result <;> rfl

theorem fill_of_not_emitted {e : FileFailure} (h : (o.emit (x.write o.object o.bytes).2).1 = .error e) :
    o.fill x = (.error (.emission e), (o.emit (x.write o.object o.bytes).2).2) := by
  have hpair : o.emit (x.write o.object o.bytes).2 = (.error e, (o.emit (x.write o.object o.bytes).2).2) := Prod.ext h rfl
  rw [fill, finish, hpair]

theorem content_object (o : Order) (cwd : Place) : o.content cwd (o.object.placeFrom cwd) ≠ none := by
  rw [content]
  split
  · nofun
  · rw [if_pos rfl]
    nofun

theorem content_exports {p : Path} {text : String} (h : o.exports = some (p, text)) (cwd v : Place) :
    o.content cwd v =
      if p.placeFrom cwd = v then some (Text.encodeUtf8 text.toList)
      else if o.object.placeFrom cwd = v then some o.bytes else none := by
  rw [content, h, Option.filter]
  by_cases hv : p.placeFrom cwd = v <;> simp [hv]

theorem content_of_none (h : o.exports = none) (cwd v : Place) :
    o.content cwd v = if o.object.placeFrom cwd = v then some o.bytes else none := by
  rw [content, h]
  rfl

theorem workingDirectory_emit : (o.emit x).2.workingDirectory = x.workingDirectory := by
  rw [emit]
  split
  · rfl
  · exact workingDirectory_writeText

theorem directory_emit {v : Place} (h : x.node? v = some .directory) : (o.emit x).2.node? v = some .directory := by
  rw [emit]
  split
  · exact h
  · exact directory_writeText h

theorem node?_emit (hobject : (x.write o.object o.bytes).1 = .ok ())
    (h : (o.emit (x.write o.object o.bytes).2).1 = .ok ()) {v : Place} {bytes : List UInt8}
    (hv : o.content x.workingDirectory v = some bytes) :
    ∃ executable, (o.emit (x.write o.object o.bytes).2).2.node? v = some (.file bytes executable) := by
  have hwritten := node?_write (q := v) hobject
  cases hexports : o.exports with
  | none =>
    rw [content_of_none hexports] at hv
    rw [emit, hexports]
    dsimp only
    split at hv
    · next hplace =>
      rw [if_pos hplace] at hwritten
      rw [← Option.some.inj hv]
      exact ⟨_, hwritten⟩
    · cases hv
  | some e =>
    obtain ⟨p, text⟩ := e
    rw [content_exports hexports] at hv
    rw [emit, hexports] at h ⊢
    dsimp only at h ⊢
    have hgrown := prepareRoom_grown (t := (x.write o.object o.bytes).2) p
    obtain ⟨-, hok⟩ := writeText_of_ok h
    rw [snd_writeText_of_ok h, node?_write (congrArg Prod.fst hok), hgrown.workingDirectory, workingDirectory_write]
    split at hv
    · next hplace =>
      rw [if_pos hplace, Option.some.inj hv]
      exact ⟨_, rfl⟩
    · next hplace =>
      rw [if_neg hplace]
      split at hv
      · next hplace' =>
        rw [if_pos hplace'] at hwritten
        rw [← Option.some.inj hv]
        exact ⟨_, hgrown.keeps hwritten⟩
      · cases hv

theorem emit_again (hobject : (x.write o.object o.bytes).1 = .ok ())
    (h : (o.emit (x.write o.object o.bytes).2).1 = .ok ()) (hw : y.workingDirectory = x.workingDirectory)
    (hd : ∀ v, y.node? v = some .directory ↔
      (o.emit (x.write o.object o.bytes).2).2.node? v = some .directory) :
    (y.write o.object o.bytes).1 = .ok () ∧ (o.emit (y.write o.object o.bytes).2).1 = .ok () ∧
      ∀ v, (o.emit (y.write o.object o.bytes).2).2.node? v =
        match o.content x.workingDirectory v with
        | some bytes => some (.file bytes (y.executableAt v))
        | none => y.node? v := by
  have hfile {v : Place} (hv : o.content x.workingDirectory v ≠ none) : y.node? v ≠ some .directory := by
    obtain ⟨bytes, hbytes⟩ := Option.ne_none_iff_exists'.mp hv
    obtain ⟨executable, hnode⟩ := node?_emit hobject h hbytes
    rw [ne_eq, hd, hnode]
    nofun
  have hagain : (y.write o.object o.bytes).1 = .ok () :=
    write_eq_ok_of hobject hw (fun v hv => (hd v).mpr (directory_emit (directory_write hv)))
      (hfile (content_object o _))
  have hwritten (v : Place) := node?_write (q := v) hagain
  rw [hw] at hwritten
  refine ⟨hagain, ?_⟩
  cases hexports : o.exports with
  | none =>
    rw [emit, hexports]
    refine ⟨rfl, fun v => ?_⟩
    dsimp only
    rw [content_of_none hexports, hwritten]
    split <;> rfl
  | some e =>
    obtain ⟨p, text⟩ := e
    rw [emit, hexports] at h hd
    dsimp only at h hd
    have hp : o.content x.workingDirectory (p.placeFrom x.workingDirectory) ≠ none := by
      rw [content_exports hexports, if_pos rfl]
      nofun
    have hfree : (y.write o.object o.bytes).2.node? (p.placeFrom x.workingDirectory) ≠ some .directory := by
      rw [hwritten]
      split
      · nofun
      · exact hfile hp
    have hcwd : (y.write o.object o.bytes).2.workingDirectory = (x.write o.object o.bytes).2.workingDirectory := by
      rw [workingDirectory_write, workingDirectory_write, hw]
    obtain ⟨hok, hnodes⟩ := writeText_of_written h hcwd (fun v hv => directory_write ((hd v).mpr hv))
      (by rwa [workingDirectory_write])
    rw [workingDirectory_write] at hnodes
    rw [emit, hexports]
    refine ⟨hok, fun v => ?_⟩
    dsimp only
    rw [hnodes, executableAt_write, content_exports hexports, hwritten]
    split
    · rfl
    · split <;> rfl

def Astray (o : Order) (x : FileTree) : Prop :=
  ∃ p text parent e, o.exports = some (p, text) ∧ room? p = some parent ∧ ".." ∈ parent.steps ∧
    ((x.write o.object o.bytes).2.prepareRoom p).1 = .error e

theorem Astray.fill_eq_error (h : o.Astray x) :
    ∃ p text parent cause, o.exports = some (p, text) ∧ room? p = some parent ∧ ".." ∈ parent.steps ∧
      (o.fill x).1 = .error (.emission ⟨"failed to create directory: " ++ parent.text, cause⟩) := by
  obtain ⟨p, text, parent, e, hexports, hroom, hup, hmade⟩ := h
  have hcause : ∃ cause, e = ⟨"failed to create directory: " ++ parent.text, cause⟩ := by
    rw [prepareRoom_of_room? hroom] at hmade
    revert hmade
    cases (x.write o.object o.bytes).2.ensureDirectory parent with
    | mk made t =>
      cases made with
      | ok _ => nofun
      | error cause => exact fun hmade => ⟨cause, (Except.error.inj hmade).symm⟩
  obtain ⟨cause, rfl⟩ := hcause
  have hemit : (o.emit (x.write o.object o.bytes).2).1 = .error ⟨"failed to create directory: " ++ parent.text, cause⟩ := by
    have hpair : (x.write o.object o.bytes).2.prepareRoom p =
        (.error ⟨"failed to create directory: " ++ parent.text, cause⟩, ((x.write o.object o.bytes).2.prepareRoom p).2) :=
      Prod.ext hmade rfl
    rw [emit, hexports]
    dsimp only
    rw [writeText_eq, hpair]
  exact ⟨p, text, parent, cause, hexports, hroom, hup, congrArg Prod.fst (fill_of_not_emitted hemit)⟩

theorem fill_again_of_emitted (hobject : (x.write o.object o.bytes).1 = .ok ())
    (h : (o.emit (x.write o.object o.bytes).2).1 = .ok ())
    (hps : ∀ p ∈ ps, o.content x.workingDirectory (p.placeFrom x.workingDirectory) ≠ none)
    (hy : y = (o.fill x).2.removeEach ps) :
    (y.write o.object o.bytes).1 = .ok () ∧ (o.fill y).2.removeEach ps = y ∧ (o.fill y).1 = (o.fill x).1 := by
  rw [fill_of_emitted h] at hy ⊢
  have hemitted : (o.emit (x.write o.object o.bytes).2).2.workingDirectory = x.workingDirectory :=
    workingDirectory_emit.trans workingDirectory_write
  have hpatched : Alike (Patch.applyAll (o.emit (x.write o.object o.bytes).2).2 o.targets).2
      (o.emit (x.write o.object o.bytes).2).2 := Patch.applyAll_alike
  have hw : y.workingDirectory = x.workingDirectory := by
    rw [hy, workingDirectory_removeEach, hpatched.workingDirectory, hemitted]
  have hd (v : Place) : y.node? v = some .directory ↔
      (o.emit (x.write o.object o.bytes).2).2.node? v = some .directory := by
    rw [hy]
    exact directory_removeEach.trans hpatched.directory_iff
  obtain ⟨hagain, hemit, hnodes⟩ := emit_again hobject h hw hd
  rw [← hemitted] at hps hnodes
  have hcwd : (o.emit (y.write o.object o.bytes).2).2.workingDirectory =
      (o.emit (x.write o.object o.bytes).2).2.workingDirectory := by
    rw [workingDirectory_emit, workingDirectory_write, hw, hemitted]
  have hrenewed : Renewed (o.content (o.emit (x.write o.object o.bytes).2).2.workingDirectory) o.targets ps
      (o.emit (x.write o.object o.bytes).2).2 y (o.emit (y.write o.object o.bytes).2).2 := by
    refine ⟨hy, hps, hcwd, fun v bytes hv => ?_, fun v bytes hv => ?_, fun v hv => ?_⟩
    · exact node?_emit hobject h (hemitted ▸ hv)
    · rw [hnodes, hv]
    · rw [hnodes, hv]
  rw [fill_of_emitted hemit]
  exact ⟨hagain, hrenewed.patch_again, by rw [Patch.applyAll_fst_congr hrenewed.alike]⟩

theorem fill_again_of_not_emitted {e : FileFailure} (hobject : (x.write o.object o.bytes).1 = .ok ())
    (h : (o.emit (x.write o.object o.bytes).2).1 = .error e) (hps : ∀ p ∈ ps, p = o.object)
    (hy : y = (o.fill x).2.removeEach ps) :
    (y.write o.object o.bytes).1 = .ok () ∧ (o.fill y).2.removeEach ps = y ∧
      ∃ e', (o.fill y).1 = .error (.emission e') ∧ (¬ o.Astray x → e' = e) := by
  rw [fill_of_not_emitted h] at hy
  cases hexports : o.exports with
  | none =>
    rw [emit, hexports] at h
    cases h
  | some entry =>
    obtain ⟨p, text⟩ := entry
    have hemit (t : FileTree) : o.emit t = t.writeText p text := by rw [emit, hexports]
    rw [hemit] at h hy
    -- what is left is the object and the directories that could be made
    have hleft := prepareRoom_grown (t := (x.write o.object o.bytes).2) p
    rw [← writeText_of_error h] at hleft
    obtain ⟨hagain, hrenewed⟩ := write_renewed hobject hleft hps hy
    obtain ⟨e', hfails, hnothing, hreason⟩ := writeText_again_of_alike h hrenewed.alike
    have hfill : o.fill y = (.error (.emission e'), (y.write o.object o.bytes).2) := by
      have hfailed : (o.emit (y.write o.object o.bytes).2).1 = .error e' := by rw [hemit, hnothing]
      rw [fill_of_not_emitted hfailed, hemit, hnothing]
    rw [hfill]
    refine ⟨hagain, hrenewed.patch_again, e', rfl, fun hstraight => ?_⟩
    cases hmade : ((x.write o.object o.bytes).2.prepareRoom p).1 with
    | ok _ => exact hreason hmade
    | error e₀ =>
      obtain ⟨parent, hroom⟩ := exists_room_of_prepareRoom hmade
      have hup : ".." ∉ parent.steps := fun hup => hstraight ⟨p, text, parent, e₀, hexports, hroom, hup, hmade⟩
      obtain ⟨hfirst, hsecond⟩ := writeText_again_of_straight text hroom hup hmade
      rw [hfirst] at h
      rw [hfails] at hsecond
      exact (Except.error.inj (congrArg Prod.fst hsecond)).trans (Except.error.inj h)

end Order

end NativeBuild
