namespace NativeBuild.Text

def pieces (sep : Char) : List Char → List (List Char)
  | [] => [[]]
  | c :: cs =>
    if c = sep then [] :: pieces sep cs
    else
      match pieces sep cs with
      | [] => [[c]]
      | p :: ps => (c :: p) :: ps

def joinPieces (sep : Char) : List (List Char) → List Char
  | [] => []
  | [p] => p
  | p :: q :: ps => p ++ sep :: joinPieces sep (q :: ps)

theorem pieces_ne_nil (sep : Char) (cs : List Char) : pieces sep cs ≠ [] := by
  cases cs with
  | nil => simp [pieces]
  | cons c cs =>
    rw [pieces]
    split
    · simp
    · split <;> simp

theorem joinPieces_nil_cons {sep : Char} {ps : List (List Char)} (h : ps ≠ []) :
    joinPieces sep ([] :: ps) = sep :: joinPieces sep ps := by
  cases ps with
  | nil => simp at h
  | cons p ps => simp [joinPieces]

theorem joinPieces_cons_cons (sep c : Char) (p : List Char) (ps : List (List Char)) :
    joinPieces sep ((c :: p) :: ps) = c :: joinPieces sep (p :: ps) := by
  cases ps <;> simp [joinPieces]

theorem joinPieces_pieces (sep : Char) (cs : List Char) : joinPieces sep (pieces sep cs) = cs := by
  induction cs with
  | nil => rfl
  | cons c cs ih =>
    rw [pieces]
    split
    · next h => rw [joinPieces_nil_cons (pieces_ne_nil sep cs), ih, h]
    · split
      · next h => exact absurd h (pieces_ne_nil sep cs)
      · next p ps h => rw [joinPieces_cons_cons, ← h, ih]

theorem not_mem_of_mem_pieces {sep : Char} {cs p : List Char} (h : p ∈ pieces sep cs) : ¬ sep ∈ p := by
  induction cs generalizing p with
  | nil => simp_all [pieces]
  | cons c cs ih =>
    rw [pieces] at h
    split at h
    · rcases List.mem_cons.1 h with rfl | h
      · simp
      · exact ih h
    · next hc =>
      split at h
      · simp_all [Ne.symm hc]
      · next q qs hq =>
        rcases List.mem_cons.1 h with rfl | h
        · have := ih (p := q) (by simp [hq])
          simp [this, Ne.symm hc]
        · exact ih (by simp [hq, h])

theorem pieces_of_not_mem {sep : Char} {p : List Char} (h : ¬ sep ∈ p) : pieces sep p = [p] := by
  induction p with
  | nil => rfl
  | cons c p ih =>
    obtain ⟨hc, hp⟩ := List.ne_and_not_mem_of_not_mem_cons h
    rw [pieces, if_neg (Ne.symm hc), ih hp]

theorem pieces_append_cons (sep : Char) (a b : List Char) :
    pieces sep (a ++ sep :: b) = pieces sep a ++ pieces sep b := by
  induction a with
  | nil => simp [pieces]
  | cons c a ih =>
    rw [List.cons_append, pieces, pieces]
    split
    · rw [ih, List.cons_append]
    · rw [ih]
      obtain ⟨p, ps, hps⟩ := List.exists_cons_of_ne_nil (pieces_ne_nil sep a)
      rw [hps]
      rfl

theorem pieces_append {sep : Char} {p rest : List Char} (h : ¬ sep ∈ p) :
    pieces sep (p ++ sep :: rest) = p :: pieces sep rest := by
  rw [pieces_append_cons, pieces_of_not_mem h, List.singleton_append]

theorem pieces_joinPieces {sep : Char} {ps : List (List Char)} (hne : ps ≠ [])
    (h : ∀ p ∈ ps, ¬ sep ∈ p) : pieces sep (joinPieces sep ps) = ps := by
  induction ps with
  | nil => exact absurd rfl hne
  | cons p ps ih =>
    obtain ⟨hp, hps⟩ := List.forall_mem_cons.mp h
    cases ps with
    | nil => exact pieces_of_not_mem hp
    | cons q qs => rw [joinPieces, pieces_append hp, ih (List.cons_ne_nil q qs) hps]

theorem pieces_flatMap {sep : Char} {ls : List (List Char)} (h : ∀ l ∈ ls, sep ∉ l) :
    pieces sep (ls.flatMap (· ++ [sep])) = ls ++ [[]] := by
  induction ls with
  | nil => rfl
  | cons l ls ih =>
    obtain ⟨hl, hls⟩ := List.forall_mem_cons.mp h
    rw [List.flatMap_cons, List.append_assoc, List.singleton_append, pieces_append hl, ih hls, List.cons_append]

def terminatedPieces (sep : Char) (cs : List Char) : List (List Char) :=
  let ps := pieces sep cs
  if ps.getLast? = some [] then ps.dropLast else ps

def cutFirst (sep : Char) : List Char → Option (List Char × List Char)
  | [] => none
  | c :: cs => if c = sep then some ([], cs) else (cutFirst sep cs).map (fun p => (c :: p.1, p.2))

def cutLast (sep : Char) (cs : List Char) : Option (List Char × List Char) :=
  (cutFirst sep cs.reverse).map (fun p => (p.2.reverse, p.1.reverse))

theorem cutFirst_eq_some_iff {sep : Char} {cs a b : List Char} :
    cutFirst sep cs = some (a, b) ↔ cs = a ++ sep :: b ∧ ¬ sep ∈ a := by
  induction cs generalizing a with
  | nil => simp [cutFirst]
  | cons c cs ih =>
    rw [cutFirst]
    split
    · next h =>
      subst h
      constructor
      · intro h; simp at h; obtain ⟨rfl, rfl⟩ := h; simp
      · rintro ⟨h, hn⟩
        cases a with
        | nil => simp_all
        | cons x xs => simp at h; obtain ⟨rfl, _⟩ := h; simp at hn
    · next hc =>
      constructor
      · intro h
        obtain ⟨⟨p, q⟩, hp, he⟩ := Option.map_eq_some_iff.1 h
        simp at he
        obtain ⟨rfl, rfl⟩ := he
        obtain ⟨rfl, hn⟩ := ih.1 hp
        simp [hn, Ne.symm hc]
      · rintro ⟨h, hn⟩
        cases a with
        | nil => simp at h; exact absurd h.1 hc
        | cons x xs =>
          simp at h hn
          obtain ⟨rfl, h⟩ := h
          simp [ih.2 ⟨h, hn.2⟩]

theorem cutLast_eq_some_iff {sep : Char} {cs a b : List Char} :
    cutLast sep cs = some (a, b) ↔ cs = a ++ sep :: b ∧ ¬ sep ∈ b := by
  simp only [cutLast, Option.map_eq_some_iff, Prod.mk.injEq, Prod.exists, cutFirst_eq_some_iff]
  constructor
  · rintro ⟨p, q, ⟨h, hn⟩, rfl, rfl⟩
    have := congrArg List.reverse h
    simp at this
    simp [this, hn]
  · rintro ⟨rfl, hn⟩
    exact ⟨b.reverse, a.reverse, by simp [hn], by simp, by simp⟩

end NativeBuild.Text
