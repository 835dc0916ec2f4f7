import NativeBuild.Proofs.Path.Child

namespace NativeBuild.Path

open Text

variable {p q : Path} {name : String} {names : List String}

def Below (p : Path) (names : List String) (q : Path) : Prop := q.components = p.components ++ names.map Component.name

theorem componentOfPiece_name (hname : IsName name) : componentOfPiece name.toList = .name name := by
  have hdots : name.toList ≠ ['.', '.'] := fun heq => hname.not_parent (String.toList_inj.mp heq)
  rw [componentOfPiece, if_neg hdots, String.ofList_toList]

theorem components_child (p : Path) (hname : IsName name) :
    (p.child name).components = p.components ++ [Component.name name] := by
  have hsolid : isSilent name.toList = false := hname.not_silent
  have hchild : pieces '/' (p.child name).chars = terminatedPieces '/' p.chars ++ [name.toList] :=
    pieces_child p hname.slashless
  cases hends : terminatedPieces '/' p.chars with
  | nil =>
    have hpieces : pieces '/' p.chars = [[]] := by
      obtain heq | heq := pieces_eq_terminatedPieces p.chars
      · exact absurd (heq.trans hends) (pieces_ne_nil '/' p.chars)
      · rw [heq, hends]
        rfl
    rw [hends] at hchild
    rw [components, anatomy_of_not_silent hchild hsolid, components, anatomy, hpieces]
    simp [hsolid, componentOfPiece_name hname]
  | cons x xs =>
    rw [hends, List.cons_append] at hchild
    obtain ⟨rest, hpieces, hrest⟩ : ∃ rest, pieces '/' p.chars = x :: rest ∧ (rest = xs ∨ rest = xs ++ [[]]) := by
      obtain heq | heq := pieces_eq_terminatedPieces p.chars
      · exact ⟨xs, heq.trans hends, .inl rfl⟩
      · exact ⟨xs ++ [[]], by rw [heq, hends, List.cons_append], .inr rfl⟩
    have hfilter : rest.filter (fun y => !isSilent y) = xs.filter (fun y => !isSilent y) := by
      obtain rfl | rfl := hrest
      · rfl
      · simp [isSilent]
    by_cases hx : isSilent x = true
    · have hanatomy : p.anatomy = ⟨some x, rest⟩ := by
        by_cases hnone : rest = []
        · -- an empty text has no end, and a lone dot is an anchor
          rw [hnone] at hpieces
          rw [isSilent, Bool.or_eq_true, beq_iff_eq, beq_iff_eq] at hx
          obtain rfl | rfl := hx
          · simp [terminatedPieces, hpieces] at hends
          · rw [anatomy, hpieces, hnone]
            rfl
        · exact anatomy_of_silent hpieces hx hnone
      rw [components, anatomy_of_silent hchild hx (by simp), components, hanatomy]
      cases x <;> simp [hsolid, hfilter, componentOfPiece_name hname]
    · have hx' : isSilent x = false := by simpa using hx
      rw [components, anatomy_of_not_silent hchild hx', components, anatomy_of_not_silent hpieces hx']
      simp [hx', hsolid, hfilter, componentOfPiece_name hname]

theorem Below.refl (p : Path) : Below p [] p := (List.append_nil _).symm

theorem Below.child (h : Below p names q) (hname : IsName name) : Below p (names ++ [name]) (q.child name) := by
  rw [Below, components_child q hname, h, List.append_assoc, List.map_append, List.map_singleton]

end NativeBuild.Path
