import NativeBuild.Proofs.Path.Pieces

namespace NativeBuild.Path

open Text

variable {p : Path} {l : Last} {ext : String} {cwd : Place}

theorem cutLast_of_splitName {name stem e : List Char} (h : splitName name = (stem, some e)) :
    name = stem ++ '.' :: e := by
  rw [splitName] at h
  split at h
  · next stem' e' hcut =>
    split at h
    · cases h
    · obtain ⟨rfl, he⟩ := Prod.mk.inj h
      obtain rfl := Option.some.inj he
      exact (cutLast_eq_some_iff.mp hcut).1
  · cases h

theorem eq_of_splitName {name name' : List Char} (h : splitName name = (name', none)) : name' = name := by
  rw [splitName] at h
  split at h
  · split at h
    · exact (Prod.mk.inj h).1.symm
    · cases h
  · exact (Prod.mk.inj h).1.symm

theorem splitName_eq_some_iff {name e : List Char} :
    (splitName name).2 = some e ↔ ∃ stem, stem ≠ [] ∧ name = stem ++ '.' :: e ∧ '.' ∉ e := by
  rw [splitName]
  cases hcut : cutLast '.' name with
  | none =>
    refine iff_of_false nofun ?_
    rintro ⟨stem, -, hname⟩
    rw [cutLast_eq_some_iff.mpr hname] at hcut
    cases hcut
  | some parts =>
    obtain ⟨hname, hdot⟩ := cutLast_eq_some_iff.mp hcut
    by_cases hstem : parts.1 = []
    · simp only [hstem, if_true]
      refine iff_of_false nofun ?_
      rintro ⟨stem, hne, hname'⟩
      rw [cutLast_eq_some_iff.mpr hname'] at hcut
      exact hne (by rw [← hstem, ← Option.some.inj hcut])
    · simp only [hstem, if_false]
      constructor
      · intro h
        obtain rfl := Option.some.inj h
        exact ⟨parts.1, hstem, hname, hdot⟩
      · rintro ⟨stem, -, hname'⟩
        rw [cutLast_eq_some_iff.mpr hname'] at hcut
        rw [← Option.some.inj hcut]

/-- The path has no file name to put an extension to, or has the extension already. A name that is cut
down to dots keeps them only before a separator. -/
def Absorbs (p : Path) (ext : String) : Prop :=
  p.fileName? = none ∨ p.extension? = some ext ∧
    (p.fileStem? = some "." → p.last?.any (·.trailing) = true)

instance (p : Path) (ext : String) : Decidable (p.Absorbs ext) :=
  inferInstanceAs (Decidable (_ ∨ _ ∧ (_ → _)))

structure PlainExtension (ext : String) : Prop where
  nonempty : ext.toList ≠ []
  dotless : '.' ∉ ext.toList
  slashless : '/' ∉ ext.toList

theorem step_of_name {place : Place} {name : List Char} (hdot : name ≠ ['.']) (hdots : name ≠ ['.', '.']) :
    FileTree.step place (String.ofList name) = place ++ [String.ofList name] := by
  have hne {cs : List Char} (h : name ≠ cs) : String.ofList name ≠ String.ofList cs :=
    fun heq => h (String.ofList_injective heq)
  rw [FileTree.step, if_neg (hne hdot), if_neg (hne hdots)]

theorem PlainExtension.not_dots (h : PlainExtension ext) (stem : List Char) {n : Nat} :
    stem ++ '.' :: ext.toList ≠ List.replicate n '.' := by
  intro heq
  obtain ⟨c, hc⟩ := List.exists_mem_of_ne_nil _ h.nonempty
  have hmem : c ∈ List.replicate n '.' := heq ▸ List.mem_append_right _ (List.mem_cons_of_mem _ hc)
  exact h.dotless (List.eq_of_mem_replicate hmem ▸ hc)

def Last.directory (l : Last) (cwd : Place) : Place :=
  (stepsOf (l.anchor.toList ++ l.front)).foldl FileTree.step
    (if (l.anchor.toList ++ l.front).head? == some [] then [] else cwd)

theorem placeFrom_of_last? (h : p.last? = some l) (cwd : Place) :
    p.placeFrom cwd = FileTree.step (l.directory cwd) (String.ofList l.piece) := by
  obtain ⟨tail, hpieces, htail, hpiece⟩ := pieces_of_last? h
  apply placeFrom_of_pieces hpieces _ htail
  intro hnil
  rw [hnil] at hpiece
  cases hpiece

theorem placeFrom_at (h : p.last? = some l) {piece : List Char} (hne : piece ≠ []) (hslash : '/' ∉ piece)
    (cwd : Place) :
    (Anatomy.toPath ⟨l.anchor, l.front ++ [piece]⟩).placeFrom cwd =
      FileTree.step (l.directory cwd) (String.ofList piece) := by
  have hbody : ∀ q ∈ l.front ++ [piece], '/' ∉ q :=
    List.forall_mem_append.mpr ⟨slash_not_mem_front h, List.forall_mem_singleton.mpr hslash⟩
  have hnew := pieces_toPath (a := ⟨l.anchor, l.front ++ [piece]⟩) (anchor_of_last? h) (by simp) hbody
  rw [← List.append_assoc] at hnew
  exact placeFrom_of_pieces hnew hne (List.forall_mem_nil _)

theorem placeFrom_of_name (h : p.last? = some l) (hdots : l.piece ≠ ['.', '.']) (cwd : Place) :
    p.placeFrom cwd = l.directory cwd ++ [String.ofList l.piece] := by
  obtain ⟨tail, -, -, hpiece⟩ := pieces_of_last? h
  have hdot : l.piece ≠ ['.'] := fun hpiece' => by rw [hpiece'] at hpiece; cases hpiece
  rw [placeFrom_of_last? h, step_of_name hdot hdots]

theorem placeFrom_extended (h : p.last? = some l) (hdots : l.piece ≠ ['.', '.']) (hext : PlainExtension ext)
    {stem : List Char} (hstem : '/' ∉ stem) (cwd : Place) :
    (Anatomy.toPath ⟨l.anchor, l.front ++ [stem ++ '.' :: ext.toList]⟩).placeFrom cwd = p.placeFrom cwd ↔
      stem ++ '.' :: ext.toList = l.piece := by
  have hnew : '/' ∉ stem ++ '.' :: ext.toList := by simp [hstem, hext.slashless]
  rw [placeFrom_at h (by simp) hnew, step_of_name (hext.not_dots (n := 1) stem) (hext.not_dots (n := 2) stem),
    placeFrom_of_name h hdots, List.append_cancel_left_eq, List.singleton_inj, String.ofList_inj]

theorem placeFrom_withExtension (hext : PlainExtension ext) (cwd : Place) :
    (p.withExtension ext).placeFrom cwd = p.placeFrom cwd ↔ p.Absorbs ext := by
  rw [withExtension, Absorbs]
  cases hlast : p.last? with
  | none => simp [fileName?, hlast]
  | some l =>
    dsimp only
    by_cases hdots : l.piece = ['.', '.']
    · simp [fileName?, hlast, hdots]
    · have hname : p.fileName? = some (String.ofList l.piece) := by simp [fileName?, hlast, hdots]
      have hslash := slash_not_mem_piece hlast
      rw [if_neg hdots, hname]
      cases hsplit : splitName l.piece with
      | mk stem e =>
        have hextension : p.extension? = e.map String.ofList := by simp [extension?, hname, hsplit]
        have hfileStem : p.fileStem? = some (String.ofList stem) := by simp [fileStem?, hname, hsplit]
        rw [hextension, hfileStem]
        cases e with
        | none =>
          obtain rfl := eq_of_splitName hsplit
          simp [placeFrom_extended hlast hdots hext hslash]
        | some e =>
          have hcut := cutLast_of_splitName hsplit
          have hstem : '/' ∉ stem := fun hmem => hslash (hcut ▸ List.mem_append_left _ hmem)
          have hsame : stem ++ '.' :: ext.toList = l.piece ↔ some (String.ofList e) = some ext := by
            rw [hcut, List.append_cancel_left_eq, List.cons_inj_right, Option.some_inj, ← String.toList_inj,
              String.toList_ofList, eq_comm]
          by_cases hcase : stem = ['.'] ∧ l.trailing = false
          · obtain ⟨rfl, htrailing⟩ := hcase
            have hplaces : (Anatomy.toPath ⟨l.anchor, l.front ++ [['.', '.']]⟩).placeFrom cwd ≠ p.placeFrom cwd := by
              intro heq
              rw [placeFrom_at hlast (by simp) (by decide), placeFrom_of_name hlast hdots] at heq
              have hlength := congrArg List.length heq
              simp [FileTree.step] at hlength
            simp [htrailing, hplaces]
          · have hkept : ¬ (decide (stem = ['.']) && !l.trailing) = true := by simpa using hcase
            have habsorbs : some (String.ofList stem) = some "." → l.trailing = true := by
              intro heq
              have hdotted : stem = ['.'] := String.ofList_injective (Option.some.inj heq)
              simpa [hdotted] using hcase
            dsimp only
            rw [if_neg hkept, placeFrom_extended hlast hdots hext hstem, hsame]
            simp only [reduceCtorEq, false_or, Option.map_some, Option.some_inj, iff_self_and]
            exact fun _ => by simpa using habsorbs

theorem first_of_last? (h : p.last? = some l) (hanchor : l.anchor = none) :
    ∀ q ∈ p.anatomy.body.head?, isSilent q = false := by
  intro q hq
  obtain ⟨qs, hbody⟩ := List.head?_eq_some_iff.mp (Option.mem_def.mp hq)
  obtain ⟨tail, hsplit, -, hpiece, -⟩ := body_of_last? h
  rw [← Bool.not_eq_true]
  intro hsilent
  by_cases hqs : qs = []
  · rw [hqs, hsplit] at hbody
    have hmem : l.piece ∈ [q] := hbody ▸ List.mem_append_right _ List.mem_cons_self
    rw [List.mem_singleton.mp hmem, hsilent] at hpiece
    cases hpiece
  · have hpieces := pieces_eq_of_last? h
    rw [hanchor, hbody] at hpieces
    have hsame := anchor_eq_of_last? h
    rw [anatomy_of_silent hpieces hsilent hqs, hanchor] at hsame
    cases hsame

theorem last?_toPath {anchor : Option (List Char)} {front : List (List Char)} {piece : List Char}
    (hanchor : anchor = none ∨ anchor = some [] ∨ anchor = some ['.'])
    (hfirst : anchor = none → ∀ q ∈ front.head?, isSilent q = false) (hslash : ∀ q ∈ front ++ [piece], '/' ∉ q)
    (hpiece : isSilent piece = false) :
    (Anatomy.toPath ⟨anchor, front ++ [piece]⟩).last? = some ⟨anchor, front, piece, false⟩ := by
  have hnew := pieces_toPath (a := ⟨anchor, front ++ [piece]⟩) hanchor (by simp) hslash
  have hanatomy : (Anatomy.toPath ⟨anchor, front ++ [piece]⟩).anatomy = ⟨anchor, front ++ [piece]⟩ := by
    cases anchor with
    | some q =>
      have hsilent : isSilent q = true := by
        obtain hnone | hempty | hdot := hanchor
        · cases hnone
        · rw [Option.some.inj hempty]
          rfl
        · rw [Option.some.inj hdot]
          rfl
      exact anatomy_of_silent hnew hsilent (by simp)
    | none =>
      cases front with
      | nil => exact anatomy_of_not_silent hnew hpiece
      | cons q qs => exact anatomy_of_not_silent hnew (hfirst rfl q rfl)
  rw [last?, hanatomy]
  simp [hpiece]

theorem last?_at (h : p.last? = some l) {piece : List Char} (hpiece : isSilent piece = false) (hslash : '/' ∉ piece) :
    (Anatomy.toPath ⟨l.anchor, l.front ++ [piece]⟩).last? = some ⟨l.anchor, l.front, piece, false⟩ := by
  obtain ⟨tail, hbody, -⟩ := body_of_last? h
  have hplain : ∀ q ∈ l.front ++ [piece], '/' ∉ q :=
    List.forall_mem_append.mpr ⟨slash_not_mem_front h, List.forall_mem_singleton.mpr hslash⟩
  refine last?_toPath (anchor_of_last? h) (fun hanchor q hq => ?_) hplain hpiece
  apply first_of_last? h hanchor
  rw [hbody, List.head?_append, Option.mem_def.mp hq]
  rfl

theorem parent?_at (h : p.last? = some l) {piece : List Char} (hpiece : isSilent piece = false) (hslash : '/' ∉ piece) :
    (Anatomy.toPath ⟨l.anchor, l.front ++ [piece]⟩).parent? = p.parent? := by
  rw [parent?, last?_at h hpiece hslash, parent?, h]

theorem parent?_withExtension (hext : PlainExtension ext) : (p.withExtension ext).parent? = p.parent? := by
  rw [withExtension]
  cases hlast : p.last? with
  | none => rfl
  | some l =>
    dsimp only
    have hslash := slash_not_mem_piece hlast
    have hextended {stem : List Char} (hstem : '/' ∉ stem) :
        (Anatomy.toPath ⟨l.anchor, l.front ++ [stem ++ '.' :: ext.toList]⟩).parent? = p.parent? := by
      apply parent?_at hlast
      · have hdot := hext.not_dots (n := 1) stem
        rw [isSilent, Bool.or_eq_false_iff, beq_eq_false_iff_ne, beq_eq_false_iff_ne]
        exact ⟨by simp, hdot⟩
      · simp [hstem, hext.slashless]
    split
    · rfl
    · cases hsplit : splitName l.piece with
      | mk stem e =>
        cases e with
        | none =>
          obtain rfl := eq_of_splitName hsplit
          exact hextended hslash
        | some e =>
          have hstem : '/' ∉ stem := fun hmem => hslash (cutLast_of_splitName hsplit ▸ List.mem_append_left _ hmem)
          dsimp only
          split
          · exact parent?_at hlast (by decide) (by decide)
          · exact hextended hstem

end NativeBuild.Path
