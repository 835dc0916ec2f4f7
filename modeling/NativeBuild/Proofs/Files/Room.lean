import NativeBuild.Proofs.Path.Parent
import Mathlib.Data.List.Chain

namespace NativeBuild.FileTree

variable {t : FileTree} {p parent : Path} {ps : List Path} {place : Place} {e : FileError} {text : String}

def Lineage (ps : List Path) : Prop := ps.IsChain (fun p q => p.parent? = some q)

theorem ancestry_lineage (p : Path) : Lineage (ancestry p) := by
  have hgo (n : Nat) (p : Path) : Lineage (ancestry.go n p) ∧ ∀ q ∈ (ancestry.go n p).head?, q = p := by
    induction n generalizing p with
    | zero => exact ⟨.nil, nofun⟩
    | succ n ih =>
      rw [ancestry.go]
      cases hparent : p.parent? with
      | none => exact ⟨.singleton p, by simp⟩
      | some parent =>
        obtain ⟨hlineage, hhead⟩ := ih parent
        refine ⟨List.isChain_cons.mpr ⟨fun q hq => ?_, hlineage⟩, by simp⟩
        rw [hparent, hhead q hq]
  exact (hgo _ p).1

theorem isDirectory_makeDirectory (h : (t.makeDirectory p).1 = .ok ()) : (t.makeDirectory p).2.isDirectory p = true := by
  obtain ⟨place, hplace, hnone⟩ := makeDirectory_eq_ok_iff.mp h
  have hgrown : Grown [place] t (t.makeDirectory p).2 :=
    makeDirectory_grown (List.mem_singleton.mpr (placeFrom_of_locate hplace))
  refine isDirectory_iff.mpr ⟨place, ?_, ?_⟩
  · exact locate_mono hgrown.workingDirectory.symm (fun v => hgrown.keeps) hplace
  · rw [node?_makeDirectory h, if_pos (placeFrom_of_locate hplace)]

theorem orThere_eq_ok_iff :
    (orThere p (t.makeDirectory p)).1 = .ok () ↔ (orThere p (t.makeDirectory p)).2.isDirectory p = true := by
  rw [snd_orThere]
  cases hmade : (t.makeDirectory p).1 with
  | ok _ =>
    have hdirectory := isDirectory_makeDirectory hmade
    have hpair : t.makeDirectory p = (.ok (), (t.makeDirectory p).2) := Prod.ext hmade rfl
    rw [hpair]
    simp [orThere, hdirectory]
  | error e =>
    have hpair : t.makeDirectory p = (.error e, t) := Prod.ext hmade (makeDirectory_of_error hmade)
    rw [hpair]
    cases hdirectory : t.isDirectory p <;> simp [orThere, hdirectory]

theorem of_orThere_error (h : (orThere p (t.makeDirectory p)).1 = .error e) :
    (t.makeDirectory p).1 ≠ .ok () ∧ (orThere p (t.makeDirectory p)).2 = t := by
  rw [snd_orThere]
  cases hmade : (t.makeDirectory p).1 with
  | ok _ =>
    have hpair : t.makeDirectory p = (.ok (), (t.makeDirectory p).2) := Prod.ext hmade rfl
    rw [hpair] at h
    cases h
  | error e' => exact ⟨nofun, makeDirectory_of_error hmade⟩

theorem makeDirectory_of_isDirectory (h : t.isDirectory p = true) :
    t.makeDirectory p = (.error .alreadyExists, t) := by
  obtain ⟨place, hplace, hnode⟩ := isDirectory_iff.mp h
  simp [makeDirectory, hplace, hnode]

theorem makeDirectories_of_isDirectory (h : t.isDirectory p = true) (ps : List Path) :
    t.makeDirectories (p :: ps) = (.ok (), t) := by
  by_cases htext : p.text = ""
  · rw [makeDirectories, if_pos htext]
  · have hmade := makeDirectory_of_isDirectory h
    rw [makeDirectories_of_ne htext (by simp [hmade]), hmade, orThere, if_pos h]

theorem makeDirectories_eq_ok_iff (hlineage : Lineage (p :: ps)) (htext : p.text ≠ "") :
    (t.makeDirectories (p :: ps)).1 = .ok () ↔ (t.makeDirectories (p :: ps)).2.isDirectory p = true := by
  induction ps generalizing p t with
  | nil =>
    by_cases hmissing : (t.makeDirectory p).1 = .error .notFound
    · rw [makeDirectories_of_notFound _ htext hmissing, makeDirectories]
      exact orThere_eq_ok_iff
    · rw [makeDirectories_of_ne htext hmissing]
      exact orThere_eq_ok_iff
  | cons q qs ih =>
    obtain ⟨hparent, hrest⟩ := List.isChain_cons_cons.mp hlineage
    by_cases hmissing : (t.makeDirectory p).1 = .error .notFound
    · rw [makeDirectories_of_notFound _ htext hmissing]
      have hparents := ih (t := t) hrest
      cases hmade : t.makeDirectories (q :: qs) with
      | mk made t' =>
        rw [hmade] at hparents
        cases made with
        | ok _ => exact orThere_eq_ok_iff
        | error e =>
          -- without its parent the path leads nowhere
          have hq : q.text ≠ "" := fun hq => by
            rw [makeDirectories, if_pos hq] at hmade
            cases hmade
          simp only [reduceCtorEq, false_iff]
          intro hdirectory
          obtain ⟨place, hplace, -⟩ := isDirectory_iff.mp hdirectory
          cases (hparents hq).mpr (isDirectory_parent hparent hq hplace)
    · rw [makeDirectories_of_ne htext hmissing]
      exact orThere_eq_ok_iff

theorem text_ne_of_makeDirectories (h : (t.makeDirectories (p :: ps)).1 = .error e) : p.text ≠ "" := by
  intro htext
  rw [makeDirectories, if_pos htext] at h
  cases h

theorem makeDirectory_ne_ok_of_lineage (hlineage : Lineage (p :: ps)) (h : (t.makeDirectories ps).1 = .error e) :
    ((t.makeDirectories ps).2.makeDirectory p).1 ≠ .ok () := by
  intro hok
  obtain ⟨place, hplace, -⟩ := makeDirectory_eq_ok_iff.mp hok
  cases ps with
  | nil => cases h
  | cons q qs =>
    obtain ⟨hparent, hrest⟩ := List.isChain_cons_cons.mp hlineage
    have hq := text_ne_of_makeDirectories h
    have hmade := (makeDirectories_eq_ok_iff hrest hq).mpr (isDirectory_parent hparent hq hplace)
    rw [h] at hmade
    cases hmade

theorem makeDirectories_again_of_ok (hlineage : Lineage ps) (h : (t.makeDirectories ps).1 = .ok ()) :
    (t.makeDirectories ps).2.makeDirectories ps = (.ok (), (t.makeDirectories ps).2) := by
  cases ps with
  | nil => rfl
  | cons p ps =>
    by_cases htext : p.text = ""
    · rw [makeDirectories, if_pos htext, makeDirectories, if_pos htext]
    · exact makeDirectories_of_isDirectory ((makeDirectories_eq_ok_iff hlineage htext).mp h) ps

theorem makeDirectories_of_not_isDirectory (htext : p.text ≠ "") (hno : t.isDirectory p = false)
    (hfail : (t.makeDirectory p).1 ≠ .ok ()) (hparents : (t.makeDirectories ps).2 = t) :
    ∃ e, t.makeDirectories (p :: ps) = (.error e, t) := by
  have hthere : ∃ e, orThere p (t.makeDirectory p) = (.error e, t) := by
    cases hmade : (t.makeDirectory p).1 with
    | ok _ => exact absurd hmade hfail
    | error e =>
      have hpair : t.makeDirectory p = (.error e, t) := Prod.ext hmade (makeDirectory_of_error hmade)
      exact ⟨e, by simp [hpair, orThere, hno]⟩
  by_cases hmissing : (t.makeDirectory p).1 = .error .notFound
  · rw [makeDirectories_of_notFound _ htext hmissing]
    revert hparents
    obtain ⟨made, t'⟩ := t.makeDirectories ps
    rintro rfl
    cases made with
    | ok _ => exact hthere
    | error e => exact ⟨e, rfl⟩
  · rw [makeDirectories_of_ne htext hmissing]
    exact hthere

theorem makeDirectories_again (hlineage : Lineage ps) (h : (t.makeDirectories ps).1 = .error e) :
    ∃ e', (t.makeDirectories ps).2.makeDirectories ps = (.error e', (t.makeDirectories ps).2) := by
  induction ps generalizing t e with
  | nil => cases h
  | cons p ps ih =>
    have hrest : Lineage ps := hlineage.tail
    have htext := text_ne_of_makeDirectories h
    have hno : (t.makeDirectories (p :: ps)).2.isDirectory p = false := by
      rw [← Bool.not_eq_true, ← makeDirectories_eq_ok_iff hlineage htext, h]
      nofun
    by_cases hmissing : (t.makeDirectory p).1 = .error .notFound
    · have hparents := makeDirectories_of_notFound ps htext hmissing
      have hok := makeDirectories_again_of_ok (t := t) hrest
      have herror (e : FileError) := ih (t := t) (e := e) hrest
      have hpath (e : FileError) := makeDirectory_ne_ok_of_lineage (t := t) (e := e) hlineage
      revert hparents hok herror hpath
      obtain ⟨made, t'⟩ := t.makeDirectories ps
      intro hparents hok herror hpath
      cases made with
      | ok _ =>
        dsimp only at hparents
        rw [hparents] at h hno ⊢
        obtain ⟨hfail, hsame⟩ := of_orThere_error h
        rw [hsame] at hno ⊢
        exact makeDirectories_of_not_isDirectory htext hno hfail (congrArg Prod.snd (hok rfl))
      | error e' =>
        dsimp only at hparents
        rw [hparents] at hno ⊢
        obtain ⟨e'', hagain : t'.makeDirectories ps = (.error e'', t')⟩ := herror e' rfl
        show ∃ e, t'.makeDirectories (p :: ps) = (.error e, t')
        exact makeDirectories_of_not_isDirectory htext hno (hpath e' rfl) (congrArg Prod.snd hagain)
    · rw [makeDirectories_of_ne htext hmissing] at h
      obtain ⟨hfail, hsame⟩ := of_orThere_error h
      rw [makeDirectories_of_ne htext hmissing, hsame, makeDirectories_of_ne htext hmissing]
      exact ⟨e, Prod.ext h hsame⟩

theorem room?_eq_some_iff : room? p = some parent ↔ p.parent? = some parent ∧ parent.text ≠ "" := by
  rw [room?, Option.filter_eq_some_iff]
  simp

theorem exists?_of_isDirectory (h : t.isDirectory p = true) : t.exists? p = true := by
  rw [exists?, lookup_eq_directory_iff.mpr (isDirectory_iff.mp h)]
  rfl

theorem exists?_of_ensureDirectory (hne : p.text ≠ "") (h : (t.ensureDirectory p).1 = .ok ()) :
    (t.ensureDirectory p).2.exists? p = true := by
  rw [ensureDirectory] at h ⊢
  split
  · next hexists => exact hexists
  · next hexists =>
    rw [if_neg hexists] at h
    obtain ⟨parents, hancestry⟩ := ancestry_eq_cons p
    have hlineage := ancestry_lineage p
    rw [hancestry] at h hlineage ⊢
    exact exists?_of_isDirectory ((makeDirectories_eq_ok_iff hlineage hne).mp h)

theorem ensureDirectory_of_error (h : (t.ensureDirectory p).1 = .error e) :
    (t.ensureDirectory p).2.isDirectory p = false ∧
      ((t.ensureDirectory p).2.ensureDirectory p).2 = (t.ensureDirectory p).2 := by
  rw [ensureDirectory] at h
  split at h
  · cases h
  · next hexists =>
    have hlineage := ancestry_lineage p
    obtain ⟨e', hagain⟩ := makeDirectories_again hlineage h
    have hno : (t.makeDirectories (ancestry p)).2.isDirectory p = false := by
      obtain ⟨parents, hancestry⟩ := ancestry_eq_cons p
      rw [hancestry] at h hlineage ⊢
      rw [← Bool.not_eq_true, ← makeDirectories_eq_ok_iff hlineage (text_ne_of_makeDirectories h), h]
      intro hok
      cases hok
    rw [ensureDirectory, if_neg hexists]
    refine ⟨hno, ?_⟩
    rw [ensureDirectory]
    split
    · rfl
    · rw [hagain]

theorem prepareRoom_of_room? (hroom : room? p = some parent) :
    t.prepareRoom p = during ("failed to create directory: " ++ parent.text) (t.ensureDirectory parent) := by
  rw [prepareRoom, hroom]
  rfl

theorem prepareRoom_of_exists (h : ∀ parent, room? p = some parent → t.exists? parent = true) :
    t.prepareRoom p = (.ok (), t) := by
  cases hroom : room? p with
  | none => rw [prepareRoom, hroom]
  | some parent =>
    rw [prepareRoom_of_room? hroom, ensureDirectory, if_pos (h parent hroom)]
    rfl

theorem prepareRoom_beside {q : Path} (hbeside : p.parent? = q.parent?) (h : t.locate q = .ok place) :
    t.prepareRoom p = (.ok (), t) := by
  apply prepareRoom_of_exists
  intro parent hroom
  obtain ⟨hparent, hne⟩ := room?_eq_some_iff.mp hroom
  exact exists?_of_isDirectory (isDirectory_parent (hbeside.symm.trans hparent) hne h)

theorem prepareRoom_of_locate (h : t.locate p = .ok place) : t.prepareRoom p = (.ok (), t) :=
  prepareRoom_beside rfl h

theorem prepareRoom_again_of_ok (h : (t.prepareRoom p).1 = .ok ()) :
    (t.prepareRoom p).2.prepareRoom p = (.ok (), (t.prepareRoom p).2) := by
  apply prepareRoom_of_exists
  intro parent hroom
  rw [prepareRoom_of_room? hroom, during_eq_ok_iff] at h
  rw [prepareRoom_of_room? hroom, snd_during]
  exact exists?_of_ensureDirectory (room?_eq_some_iff.mp hroom).2 h

theorem prepareRoom_of_error {e : FileFailure} (h : (t.prepareRoom p).1 = .error e) :
    ((t.prepareRoom p).2.prepareRoom p).2 = (t.prepareRoom p).2 ∧
      ∀ place, (t.prepareRoom p).2.locate p ≠ .ok place := by
  cases hroom : room? p with
  | none =>
    rw [prepareRoom, hroom] at h
    cases h
  | some parent =>
    obtain ⟨hparent, hne⟩ := room?_eq_some_iff.mp hroom
    rw [prepareRoom_of_room? hroom] at h
    rw [prepareRoom_of_room? hroom, prepareRoom_of_room? hroom, snd_during, snd_during]
    cases hmade : (t.ensureDirectory parent).1 with
    | ok _ =>
      rw [during_eq_ok_iff.mpr hmade] at h
      cases h
    | error e' =>
      obtain ⟨hno, hagain⟩ := ensureDirectory_of_error hmade
      refine ⟨hagain, fun place hplace => ?_⟩
      rw [isDirectory_parent hparent hne hplace] at hno
      cases hno

theorem writeText_of_locate (h : t.locate p = .ok place) :
    t.writeText p text = during ("failed to write file: " ++ p.text) (t.write p (Text.encodeUtf8 text.toList)) := by
  rw [writeText_eq, prepareRoom_of_locate h]

theorem writeText_again {e : FileFailure} (h : (t.writeText p text).1 = .error e) :
    ∃ e', (t.writeText p text).2.writeText p text = (.error e', (t.writeText p text).2) ∧
      ((t.prepareRoom p).1 = .ok () → e' = e) := by
  have hfiles := writeText_of_error h
  cases hroom : (t.prepareRoom p).1 with
  | ok _ =>
    have hagain := prepareRoom_again_of_ok hroom
    have hpair : t.prepareRoom p = (.ok (), (t.prepareRoom p).2) := Prod.ext hroom rfl
    refine ⟨e, ?_, fun _ => rfl⟩
    rw [hfiles, writeText_eq, hagain]
    rw [writeText_eq, hpair] at h hfiles
    exact Prod.ext h hfiles
  | error e₀ =>
    obtain ⟨hsame, hnowhere⟩ := prepareRoom_of_error hroom
    have hwrite : ((t.prepareRoom p).2.writeText p text).1 ≠ .ok () := by
      intro hok
      obtain ⟨-, hwritten⟩ := writeText_of_ok hok
      rw [hsame] at hwritten
      obtain ⟨-, place, hplace, -⟩ := write_eq_ok_iff.mp (congrArg Prod.fst hwritten)
      exact hnowhere place hplace
    rw [hfiles]
    cases hagain : ((t.prepareRoom p).2.writeText p text).1 with
    | ok _ => exact absurd hagain hwrite
    | error e' => exact ⟨e', Prod.ext hagain ((writeText_of_error hagain).trans hsame), nofun⟩

end NativeBuild.FileTree
