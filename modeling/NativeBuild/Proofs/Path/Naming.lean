import NativeBuild.Proofs.Path.Extension

namespace NativeBuild.Path

open Text

variable {p : Path} {l : Last} {ext ext' : String}

def Last.above (l : Last) : List Component :=
  (l.anchor.map (fun anchor => if anchor = [] then .root else .current)).toList ++
    (l.front.filter (fun q => !isSilent q)).map componentOfPiece

theorem components_of_last? (h : p.last? = some l) : p.components = l.above ++ [componentOfPiece l.piece] := by
  obtain ⟨tail, hbody, htail, hpiece, -⟩ := body_of_last? h
  have hnone : tail.filter (fun q => !isSilent q) = [] := by
    rw [List.filter_eq_nil_iff]
    intro q hq
    simp [htail q hq]
  rw [components, hbody, List.filter_append, List.filter_cons_of_pos (by simp [hpiece]), hnone, List.map_append,
    List.map_singleton, ← anchor_eq_of_last? h, Last.above]
  obtain hanchor | hanchor | hanchor := anchor_of_last? h <;> simp [hanchor]

structure SolidExtension (ext : String) : Prop where
  slashless : '/' ∉ ext.toList
  solid : ext.toList.getLast?.any (· ≠ '.') = true

instance (ext : String) : Decidable (SolidExtension ext) :=
  decidable_of_iff ('/' ∉ ext.toList ∧ ext.toList.getLast?.any (· ≠ '.') = true)
    ⟨fun h => ⟨h.1, h.2⟩, fun h => ⟨h.slashless, h.solid⟩⟩

theorem SolidExtension.not_dots (h : SolidExtension ext) (stem : List Char) {n : Nat} :
    stem ++ '.' :: ext.toList ≠ List.replicate n '.' := by
  intro heq
  obtain ⟨c, hc, hdot⟩ := (Option.any_eq_true _ _).mp h.solid
  have hmem : c ∈ stem ++ '.' :: ext.toList :=
    List.mem_append_right _ (List.mem_cons_of_mem _ (List.mem_of_getLast? hc))
  rw [heq] at hmem
  simp [List.eq_of_mem_replicate hmem] at hdot

theorem SolidExtension.not_silent (h : SolidExtension ext) (stem : List Char) :
    isSilent (stem ++ '.' :: ext.toList) = false := by
  rw [isSilent, Bool.or_eq_false_iff, beq_eq_false_iff_ne, beq_eq_false_iff_ne]
  exact ⟨by simp, h.not_dots (n := 1) stem⟩

theorem componentOfPiece_of_ne {piece : List Char} (h : piece ≠ ['.', '.']) :
    componentOfPiece piece = .name (String.ofList piece) := by rw [componentOfPiece, if_neg h]

theorem SolidExtension.component_eq (h : SolidExtension ext) (stem : List Char) :
    componentOfPiece (stem ++ '.' :: ext.toList) = .name (String.ofList (stem ++ '.' :: ext.toList)) :=
  componentOfPiece_of_ne (h.not_dots (n := 2) stem)

def TakesExtension (p : Path) : Prop :=
  p.fileName? ≠ none ∧ (p.fileStem? = some "." → p.last?.any (·.trailing) = true)

instance (p : Path) : Decidable p.TakesExtension := inferInstanceAs (Decidable (_ ∧ (_ → _)))

theorem last?_of_fileName? (h : p.fileName? ≠ none) :
    ∃ l, p.last? = some l ∧ l.piece ≠ ['.', '.'] ∧ p.fileName? = some (String.ofList l.piece) := by
  rw [fileName?] at h ⊢
  cases hlast : p.last? with
  | none => simp [hlast] at h
  | some l =>
    by_cases hdots : l.piece = ['.', '.']
    · simp [hlast, hdots] at h
    · exact ⟨l, rfl, hdots, by simp [hdots]⟩

theorem getLast?_components {name : String} (h : p.fileName? = some name) : p.components.getLast? = some (.name name) := by
  obtain ⟨l, hlast, hdots, hname⟩ := last?_of_fileName? (by rw [h]; nofun)
  rw [h, Option.some_inj] at hname
  rw [components_of_last? hlast, componentOfPiece_of_ne hdots, List.getLast?_concat, hname]

theorem withExtension_of_not_takes (h : ¬ p.TakesExtension) (ext ext' : String) :
    p.withExtension ext = p.withExtension ext' := by
  by_cases hname : p.fileName? = none
  · rw [withExtension, withExtension]
    cases hlast : p.last? with
    | none => rfl
    | some l =>
      have hdots : l.piece = ['.', '.'] := by simpa [fileName?, hlast] using hname
      simp [hdots]
  · obtain ⟨l, hlast, hdots, hfile⟩ := last?_of_fileName? hname
    obtain ⟨hstem, htrailing⟩ := Classical.not_imp.mp (not_and.mp h hname)
    rw [hlast, Option.any_some, Bool.not_eq_true] at htrailing
    rw [fileStem?, hfile, Option.map_some, String.toList_ofList, Option.some_inj] at hstem
    have hcut : (splitName l.piece).1 = ['.'] := String.ofList_injective hstem
    rw [withExtension, withExtension, hlast]
    simp only [hdots, if_false]
    cases hsplit : splitName l.piece with
    | mk stem e =>
      rw [hsplit] at hcut
      cases e with
      | some e => simp_all
      | none =>
        obtain ⟨-, -, -, hpiece, -⟩ := body_of_last? hlast
        rw [← eq_of_splitName hsplit, show stem = ['.'] from hcut] at hpiece
        cases hpiece

theorem slash_not_mem_stem (h : p.last? = some l) : '/' ∉ (splitName l.piece).1 := by
  cases hsplit : splitName l.piece with
  | mk stem e =>
    cases e with
    | none => exact eq_of_splitName hsplit ▸ slash_not_mem_piece h
    | some e =>
      intro hmem
      apply slash_not_mem_piece h
      rw [cutLast_of_splitName hsplit]
      exact List.mem_append_left _ hmem

theorem components_withExtension (hlast : p.last? = some l) (h : p.TakesExtension) (hext : SolidExtension ext) :
    (p.withExtension ext).components =
      l.above ++ [Component.name (String.ofList ((splitName l.piece).1 ++ '.' :: ext.toList))] := by
  obtain ⟨hname, hstem⟩ := h
  obtain ⟨l', hlast', hdots, hfile⟩ := last?_of_fileName? hname
  obtain rfl : l = l' := Option.some.inj (hlast.symm.trans hlast')
  rw [fileStem?, hfile, hlast] at hstem
  simp only [Option.map_some, String.toList_ofList, Option.any_some] at hstem
  have hslash := slash_not_mem_stem hlast
  have hextended {stem : List Char} (hstem : '/' ∉ stem) :
      (Anatomy.toPath ⟨l.anchor, l.front ++ [stem ++ '.' :: ext.toList]⟩).components =
        l.above ++ [Component.name (String.ofList (stem ++ '.' :: ext.toList))] := by
    have hnew := last?_at hlast (hext.not_silent stem) (by simp [hstem, hext.slashless])
    rw [components_of_last? hnew, hext.component_eq]
    rfl
  rw [withExtension, hlast]
  simp only [hdots, if_false]
  cases hsplit : splitName l.piece with
  | mk stem e =>
    rw [hsplit] at hstem hslash
    cases e with
    | none => exact hextended hslash
    | some e =>
      have hkept : ¬ (decide (stem = ['.']) && !l.trailing) = true := by
        rw [Bool.and_eq_true, decide_eq_true_eq, Bool.not_eq_true', not_and, Bool.not_eq_false]
        rintro rfl
        exact hstem rfl
      dsimp only
      rw [if_neg hkept]
      exact hextended hslash

theorem withExtension_same_self (h : p.TakesExtension) (hext : SolidExtension ext) :
    (p.withExtension ext).Same p ↔ p.extension? = some ext := by
  obtain ⟨l, hlast, hdots, hfile⟩ := last?_of_fileName? h.1
  rw [Same, components_withExtension hlast h hext, components_of_last? hlast, componentOfPiece_of_ne hdots,
    extension?, hfile, List.append_cancel_left_eq, List.singleton_inj, Component.name.injEq, String.ofList_inj,
    Option.bind_some, String.toList_ofList]
  cases hsplit : splitName l.piece with
  | mk stem e =>
    cases e with
    | none =>
      have hlonger : stem ++ '.' :: ext.toList ≠ l.piece := by
        rw [← eq_of_splitName hsplit]
        simp
      simp [hlonger]
    | some e =>
      rw [cutLast_of_splitName hsplit, List.append_cancel_left_eq, List.cons_inj_right, Option.map_some,
        Option.some_inj, ← String.toList_inj, String.toList_ofList, eq_comm]

theorem extension?_ne_of_dotted (h : '.' ∈ ext.toList) : p.extension? ≠ some ext := by
  intro hext
  obtain ⟨name, -, hname⟩ := Option.bind_eq_some_iff.mp hext
  obtain ⟨e, he, rfl⟩ := Option.map_eq_some_iff.mp hname
  rw [String.toList_ofList] at h
  rw [splitName] at he
  split at he
  · next stem e' hcut =>
    split at he
    · cases he
    · obtain rfl := Option.some.inj he
      exact (cutLast_eq_some_iff.mp hcut).2 h
  · cases he

theorem withExtension_same_withExtension (h : p.TakesExtension) (hext : SolidExtension ext)
    (hext' : SolidExtension ext') : (p.withExtension ext).Same (p.withExtension ext') ↔ ext = ext' := by
  obtain ⟨l, hlast, -⟩ := last?_of_fileName? h.1
  rw [Same, components_withExtension hlast h hext, components_withExtension hlast h hext',
    List.append_cancel_left_eq, List.singleton_inj, Component.name.injEq, String.ofList_inj,
    List.append_cancel_left_eq, List.cons_inj_right, String.toList_inj]

theorem joinPieces_concat_append (sep : Char) (ps : List (List Char)) (piece more : List Char) :
    joinPieces sep (ps ++ [piece ++ more]) = joinPieces sep (ps ++ [piece]) ++ more := by
  induction ps with
  | nil => rfl
  | cons p ps ih =>
    obtain ⟨q, qs, hqs⟩ := List.exists_cons_of_ne_nil (List.append_ne_nil_of_right_ne_nil ps (List.cons_ne_nil piece []))
    obtain ⟨q', qs', hqs'⟩ :=
      List.exists_cons_of_ne_nil (List.append_ne_nil_of_right_ne_nil ps (List.cons_ne_nil (piece ++ more) []))
    rw [hqs, hqs'] at ih
    rw [List.cons_append, List.cons_append, hqs, hqs', joinPieces, joinPieces, ih, List.append_assoc, List.cons_append]

theorem last?_addExtension (h : p.last? = some l) (hext : SolidExtension ext) :
    ∃ init q, p.anatomy.body = init ++ [q] ∧
      (p.addExtension ext).last? = some ⟨l.anchor, init, q ++ '.' :: ext.toList, false⟩ := by
  obtain ⟨tail, hbody, -⟩ := body_of_last? h
  have hne : p.anatomy.body ≠ [] := by simp [hbody]
  obtain ⟨init, q, hsplit⟩ : ∃ init q, p.anatomy.body = init ++ [q] := ⟨_, _, (List.dropLast_concat_getLast hne).symm⟩
  have hpieces := pieces_eq_of_last? h
  rw [hsplit, ← List.append_assoc] at hpieces
  have hslash : ∀ r ∈ init ++ [q ++ '.' :: ext.toList], '/' ∉ r := by
    have hplain : ∀ r ∈ init ++ [q], '/' ∉ r := hsplit ▸ slash_not_mem_body h
    rw [List.forall_mem_append, List.forall_mem_singleton] at hplain ⊢
    exact ⟨hplain.1, by simp [hplain.2, hext.slashless]⟩
  have hpath : p.addExtension ext = Anatomy.toPath ⟨l.anchor, init ++ [q ++ '.' :: ext.toList]⟩ := by
    have hnew := pieces_toPath (a := ⟨l.anchor, init ++ [q ++ '.' :: ext.toList]⟩) (anchor_of_last? h) (by simp) hslash
    apply eq_of_chars
    rw [← joinPieces_pieces '/' (Anatomy.toPath _).chars, hnew, ← List.append_assoc, joinPieces_concat_append,
      ← hpieces, joinPieces_pieces]
    simp [addExtension, chars]
  rw [hpath]
  refine ⟨init, q, hsplit, last?_toPath (anchor_of_last? h) (fun hanchor r hr => ?_) hslash (hext.not_silent q)⟩
  apply first_of_last? h hanchor
  rw [hsplit, List.head?_append, Option.mem_def.mp hr]
  rfl

theorem components_addExtension (h : p.last? = some l) (hext : SolidExtension ext) :
    ∃ name, (p.addExtension ext).components =
      if l.trailing = true then p.components ++ [Component.name name]
      else l.above ++ [Component.name (String.ofList (l.piece ++ '.' :: ext.toList))] := by
  obtain ⟨init, q, hsplit, hlast⟩ := last?_addExtension h hext
  obtain ⟨tail, hbody, htail, hpiece, htrailing⟩ := body_of_last? h
  refine ⟨String.ofList (q ++ '.' :: ext.toList), ?_⟩
  rw [components_of_last? hlast, hext.component_eq]
  rw [hbody] at hsplit
  by_cases hnil : tail = []
  · rw [hnil] at hsplit htrailing
    obtain ⟨rfl, hpieces⟩ := List.append_inj' hsplit rfl
    rw [htrailing, (List.cons.inj hpieces).1]
    rfl
  · obtain ⟨rest, r, rfl⟩ : ∃ rest r, tail = rest ++ [r] := ⟨_, _, (List.dropLast_concat_getLast hnil).symm⟩
    have hmore : (l.front ++ l.piece :: rest) ++ [r] = init ++ [q] := by simpa using hsplit
    obtain ⟨rfl, -⟩ := List.append_inj' hmore rfl
    have hsilent : rest.filter (fun q => !isSilent q) = [] := by
      rw [List.filter_eq_nil_iff]
      intro s hs
      simp [htail s (List.mem_append_left _ hs)]
    have habove : (⟨l.anchor, l.front ++ l.piece :: rest, q ++ '.' :: ext.toList, false⟩ : Last).above = p.components := by
      rw [components_of_last? h, Last.above, Last.above, List.filter_append,
        List.filter_cons_of_pos (by simp [hpiece]), hsilent, List.map_append, List.map_singleton, List.append_assoc]
    rw [habove, htrailing]
    simp

theorem not_addExtension_same_self (h : p.fileName? ≠ none) (hext : SolidExtension ext) :
    ¬ (p.addExtension ext).Same p := by
  obtain ⟨l, hlast, hdots, -⟩ := last?_of_fileName? h
  obtain ⟨name, hcomponents⟩ := components_addExtension hlast hext
  rw [Same, hcomponents]
  split
  · intro heq
    simpa using congrArg List.length heq
  · rw [components_of_last? hlast, componentOfPiece_of_ne hdots, List.append_cancel_left_eq, List.singleton_inj,
      Component.name.injEq, String.ofList_inj]
    simp

theorem suffix_of_addExtension_same (h : p.TakesExtension) (hext : SolidExtension ext) (hext' : SolidExtension ext')
    (hsame : (p.withExtension ext').Same (p.addExtension ext)) : ext.toList <:+ ext'.toList := by
  obtain ⟨l, hlast, hdots, -⟩ := last?_of_fileName? h.1
  obtain ⟨name, hcomponents⟩ := components_addExtension hlast hext
  rw [Same, hcomponents, components_withExtension hlast h hext'] at hsame
  split at hsame
  · have hlength := congrArg List.length hsame
    simp [components_of_last? hlast] at hlength
  · rw [List.append_cancel_left_eq, List.singleton_inj, Component.name.injEq, String.ofList_inj] at hsame
    cases hsplit : splitName l.piece with
    | mk stem e =>
      rw [hsplit] at hsame
      cases e with
      | none =>
        rw [← eq_of_splitName hsplit, List.append_cancel_left_eq, List.cons_inj_right] at hsame
        exact hsame ▸ List.suffix_rfl
      | some e =>
        rw [cutLast_of_splitName hsplit, List.append_assoc, List.append_cancel_left_eq, List.cons_append,
          List.cons_inj_right] at hsame
        rw [hsame]
        exact (List.suffix_cons '.' ext.toList).trans (List.suffix_append e _)

end NativeBuild.Path
