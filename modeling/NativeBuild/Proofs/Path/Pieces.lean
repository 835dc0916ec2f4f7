import NativeBuild.Proofs.Files.Resolution
import Mathlib.Data.List.TakeWhile

namespace NativeBuild.Path

open Text

variable {p : Path} {l : Last} {cwd : Place}

theorem eq_of_chars {q : Path} (h : p.chars = q.chars) : p = q := by
  cases p
  cases q
  exact congrArg Path.mk (String.toList_inj.mp h)

theorem eq_of_pieces {q : Path} (h : pieces '/' p.chars = pieces '/' q.chars) : p = q :=
  eq_of_chars (by rw [← joinPieces_pieces '/' p.chars, h, joinPieces_pieces])

theorem anchor_eq_of_last? (h : p.last? = some l) : l.anchor = p.anatomy.anchor := by
  rw [last?] at h
  split at h
  · cases h
  · rw [← Option.some.inj h]

theorem body_of_last? (h : p.last? = some l) :
    ∃ tail, p.anatomy.body = l.front ++ l.piece :: tail ∧ (∀ q ∈ tail, isSilent q = true) ∧
      isSilent l.piece = false ∧ l.trailing = !tail.isEmpty := by
  rw [last?] at h
  cases hdrop : p.anatomy.body.reverse.dropWhile isSilent with
  | nil =>
    rw [hdrop] at h
    cases h
  | cons piece front =>
    rw [hdrop] at h
    obtain rfl := Option.some.inj h
    have hbody : p.anatomy.body =
        front.reverse ++ piece :: (p.anatomy.body.reverse.takeWhile isSilent).reverse := by
      have hsplit := List.takeWhile_append_dropWhile (p := isSilent) (l := p.anatomy.body.reverse)
      rw [hdrop] at hsplit
      have hreverse := congrArg List.reverse hsplit
      rw [List.reverse_append, List.reverse_reverse, List.reverse_cons, List.append_assoc] at hreverse
      exact hreverse.symm
    refine ⟨(p.anatomy.body.reverse.takeWhile isSilent).reverse, hbody, ?_, ?_, ?_⟩
    · intro q hq
      exact List.mem_takeWhile_imp (List.mem_reverse.mp hq)
    · have hhead := List.head?_dropWhile_not isSilent p.anatomy.body.reverse
      rw [hdrop] at hhead
      simpa using hhead
    · have hlength := congrArg List.length hbody
      generalize (p.anatomy.body.reverse.takeWhile isSilent).reverse = tail at hlength
      rw [List.length_append, List.length_reverse, List.length_cons] at hlength
      cases tail with
      | nil => simpa using hlength
      | cons q tail =>
        simp only [List.isEmpty_cons, Bool.not_false, bne_iff_ne, hlength, List.length_cons]
        omega

theorem pieces_eq_of_last? (h : p.last? = some l) : pieces '/' p.chars = l.anchor.toList ++ p.anatomy.body := by
  obtain ⟨tail, hbody, -⟩ := body_of_last? h
  have hpieces : pieces '/' p.chars = p.anatomy.anchor.toList ++ p.anatomy.body ∨ p.anatomy.body = [] := by
    rw [anatomy]
    split
    · exact .inr rfl
    · exact .inr rfl
    · next rest _ heq => exact .inl heq
    · next rest heq => exact .inl heq
    · next heq => exact .inl rfl
  rw [anchor_eq_of_last? h]
  exact hpieces.resolve_right (by simp [hbody])

theorem pieces_of_last? (h : p.last? = some l) :
    ∃ tail, pieces '/' p.chars = (l.anchor.toList ++ l.front) ++ l.piece :: tail ∧
      (∀ q ∈ tail, isSilent q = true) ∧ isSilent l.piece = false := by
  obtain ⟨tail, hbody, htail, hpiece, -⟩ := body_of_last? h
  exact ⟨tail, by rw [pieces_eq_of_last? h, hbody, List.append_assoc], htail, hpiece⟩

theorem slash_not_mem_body (h : p.last? = some l) : ∀ q ∈ p.anatomy.body, '/' ∉ q := by
  intro q hq
  apply not_mem_of_mem_pieces
  rw [pieces_eq_of_last? h]
  exact List.mem_append_right _ hq

theorem slash_not_mem_front (h : p.last? = some l) : ∀ q ∈ l.front, '/' ∉ q := by
  obtain ⟨tail, hbody, -⟩ := body_of_last? h
  intro q hq
  apply slash_not_mem_body h
  rw [hbody]
  exact List.mem_append_left _ hq

theorem slash_not_mem_piece (h : p.last? = some l) : '/' ∉ l.piece := by
  obtain ⟨tail, hbody, -⟩ := body_of_last? h
  apply slash_not_mem_body h
  rw [hbody]
  exact List.mem_append_right _ List.mem_cons_self

theorem anchor_of_last? (h : p.last? = some l) : l.anchor = none ∨ l.anchor = some [] ∨ l.anchor = some ['.'] := by
  rw [anchor_eq_of_last? h, anatomy]
  split
  · exact .inl rfl
  · exact .inl rfl
  · exact .inr (.inl rfl)
  · exact .inr (.inr rfl)
  · exact .inl rfl

theorem anatomy_of_silent {q : List Char} {qs : List (List Char)} (h : pieces '/' p.chars = q :: qs)
    (hq : isSilent q = true) (hqs : qs ≠ []) : p.anatomy = ⟨some q, qs⟩ := by
  rw [isSilent, Bool.or_eq_true, beq_iff_eq, beq_iff_eq] at hq
  obtain ⟨r, rs, rfl⟩ := List.exists_cons_of_ne_nil hqs
  rw [anatomy, h]
  obtain rfl | rfl := hq <;> rfl

theorem anatomy_of_not_silent {q : List Char} {qs : List (List Char)} (h : pieces '/' p.chars = q :: qs)
    (hq : isSilent q = false) : p.anatomy = ⟨none, q :: qs⟩ := by
  rw [isSilent, Bool.or_eq_false_iff, beq_eq_false_iff_ne, beq_eq_false_iff_ne] at hq
  rw [anatomy, h]
  split <;> simp_all

theorem pieces_toPath {a : Anatomy} (hanchor : a.anchor = none ∨ a.anchor = some [] ∨ a.anchor = some ['.'])
    (hne : a.body ≠ []) (hbody : ∀ q ∈ a.body, '/' ∉ q) :
    pieces '/' a.toPath.chars = a.anchor.toList ++ a.body := by
  obtain ⟨anchor, body⟩ := a
  have hjoin := pieces_joinPieces hne hbody
  obtain rfl | rfl | rfl := hanchor
  · rw [Anatomy.toPath, chars_ofChars]
    exact hjoin
  · rw [Anatomy.toPath, chars_ofChars, pieces, if_pos rfl, hjoin]
    rfl
  · rw [Anatomy.toPath, chars_ofChars]
    apply pieces_joinPieces (List.cons_ne_nil _ _)
    exact List.forall_mem_cons.mpr ⟨by decide, hbody⟩

theorem isAbsolute_of_pieces {base rest : List (List Char)} {x : List Char}
    (h : pieces '/' p.chars = base ++ x :: rest) (hx : x ≠ []) : p.isAbsolute = (base.head? == some []) := by
  have hchars : p.chars = joinPieces '/' (base ++ x :: rest) := by rw [← h, joinPieces_pieces]
  have hplain : ∀ q ∈ base ++ x :: rest, '/' ∉ q := fun q hq => not_mem_of_mem_pieces (h ▸ hq)
  have hhead {q : List Char} {qs : List (List Char)} (hq : q ≠ []) (hslash : '/' ∉ q) :
      (joinPieces '/' (q :: qs)).head? ≠ some '/' := by
    obtain ⟨c, cs, rfl⟩ := List.exists_cons_of_ne_nil hq
    rw [joinPieces_cons_cons]
    simp only [List.head?_cons, ne_eq, Option.some.injEq]
    exact fun hc => hslash (hc ▸ List.mem_cons_self)
  rw [isAbsolute, hchars]
  cases base with
  | nil => simpa using hhead hx (hplain x List.mem_cons_self)
  | cons q qs =>
    by_cases hq : q = []
    · have hmore : qs ++ x :: rest ≠ [] := by simp
      simp [hq, joinPieces_nil_cons hmore]
    · have hfirst : (q :: qs).head? ≠ some [] := by simpa using hq
      rw [beq_eq_false_iff_ne.mpr hfirst, beq_eq_false_iff_ne]
      exact hhead hq (hplain q List.mem_cons_self)

def stepsOf (ps : List (List Char)) : List String := (ps.filter (· ≠ [])).map String.ofList

theorem steps_of_pieces {base rest : List (List Char)} {x : List Char}
    (h : pieces '/' p.chars = base ++ x :: rest) (hx : x ≠ []) :
    p.steps = stepsOf base ++ String.ofList x :: stepsOf rest := by
  simp [steps, stepsOf, h, hx]

theorem foldl_step_silent {tail : List (List Char)} (h : ∀ q ∈ tail, isSilent q = true) (place : Place) :
    (stepsOf tail).foldl FileTree.step place = place := by
  induction tail with
  | nil => rfl
  | cons q tail ih =>
    obtain ⟨hq, htail⟩ := List.forall_mem_cons.mp h
    rw [isSilent, Bool.or_eq_true, beq_iff_eq, beq_iff_eq] at hq
    obtain rfl | rfl := hq
    · exact ih htail
    · have hdot : FileTree.step place (String.ofList ['.']) = place := by simp [FileTree.step]
      show (stepsOf tail).foldl FileTree.step (FileTree.step place (String.ofList ['.'])) = place
      rw [hdot]
      exact ih htail

theorem placeFrom_of_pieces {base tail : List (List Char)} {x : List Char}
    (h : pieces '/' p.chars = base ++ x :: tail) (hx : x ≠ []) (htail : ∀ q ∈ tail, isSilent q = true) :
    p.placeFrom cwd =
      FileTree.step ((stepsOf base).foldl FileTree.step (if base.head? == some [] then [] else cwd))
        (String.ofList x) := by
  rw [placeFrom, start, isAbsolute_of_pieces h hx, steps_of_pieces h hx, List.foldl_append, List.foldl_cons,
    foldl_step_silent htail]

end NativeBuild.Path
