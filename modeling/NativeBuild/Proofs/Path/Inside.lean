import NativeBuild.Proofs.Files.Straight
import NativeBuild.Proofs.Path.Child
import NativeBuild.Proofs.Path.Naming

namespace NativeBuild

open Text

namespace FileTree

variable {t : FileTree} {place : Place} {dots names : List String}

theorem follow_dots (hdots : ∀ s ∈ dots, s = ".") (hnames : names ≠ []) (place : Place) :
    t.follow place (dots ++ names) = t.follow place names := by
  induction dots with
  | nil => rfl
  | cons s dots ih =>
    -- The step asks for the directory that the next one asks for as well.
    obtain ⟨hs, hrest⟩ := List.forall_mem_cons.mp hdots
    have hshort : ¬ nameLimit < ".".utf8ByteSize := by decide
    have hstep : step place "." = place := rfl
    rw [hs, List.cons_append, follow_cons, hstep, ih hrest, if_neg hshort]
    obtain ⟨n, ns, rfl⟩ := List.exists_cons_of_ne_nil hnames
    rw [follow_cons]
    cases t.requireDirectory place <;> rfl

theorem foldl_step_dots (hdots : ∀ s ∈ dots, s = ".") (place : Place) : dots.foldl step place = place := by
  induction dots with
  | nil => rfl
  | cons s dots ih =>
    obtain ⟨hs, hrest⟩ := List.forall_mem_cons.mp hdots
    rw [List.foldl_cons, hs]
    exact ih hrest

end FileTree

namespace Path

def lead (d : Path) : List (List Char) :=
  if d.isAbsolute then (terminatedPieces '/' d.chars).tail else terminatedPieces '/' d.chars

def kept (absolute : Bool) (ps : List (List Char)) : List (List Char) :=
  if absolute then ps.filter (· ≠ []) else (ps.filter (· ≠ [])).dropWhile (· = ['.'])

/-- Behind steps that stay where a relative path starts an empty piece leads nowhere. -/
def Stalls (absolute : Bool) (ps : List (List Char)) : Prop :=
  absolute = false ∧ (ps.dropWhile (· = ['.'])).head? = some []

instance (absolute : Bool) (ps : List (List Char)) : Decidable (Stalls absolute ps) :=
  inferInstanceAs (Decidable (_ ∧ _))

def inside (d : Path) (name : String) : Path :=
  Anatomy.toPath ⟨if d.isAbsolute then some [] else none, kept d.isAbsolute d.lead ++ [name.toList]⟩

variable {absolute : Bool} {ps : List (List Char)} {x : List Char} {d p q : Path} {name : String}

theorem mem_terminatedPieces {cs q : List Char} (h : q ∈ terminatedPieces '/' cs) : q ∈ pieces '/' cs := by
  rw [terminatedPieces] at h
  split at h
  · exact (List.dropLast_subset _) h
  · exact h

theorem mem_lead {q : List Char} (h : q ∈ d.lead) : q ∈ pieces '/' d.chars := by
  rw [lead] at h
  split at h
  · exact mem_terminatedPieces (List.mem_of_mem_tail h)
  · exact mem_terminatedPieces h

theorem pieces_child_lead (d : Path) (hname : Slashless name) :
    pieces '/' (d.child name).chars = (if d.isAbsolute then [[]] else []) ++ (d.lead ++ [name.toList]) := by
  rw [pieces_child d hname, lead]
  split
  · next habsolute =>
    obtain ⟨cs, hcs⟩ := List.head?_eq_some_iff.mp (beq_iff_eq.mp habsolute)
    have hfirst : ∃ ps, terminatedPieces '/' d.chars = [] :: ps := by
      obtain ⟨q, qs, hqs⟩ := List.exists_cons_of_ne_nil (pieces_ne_nil '/' cs)
      rw [terminatedPieces, hcs, pieces, if_pos rfl, hqs]
      split <;> exact ⟨_, rfl⟩
    obtain ⟨ps, hps⟩ := hfirst
    simp [hps]
  · rfl

theorem kept_eq_nil (h : ∀ q ∈ ps, q = ['.']) : kept false ps = [] := by
  rw [kept, if_neg Bool.false_ne_true, List.dropWhile_eq_nil_iff]
  intro q hq
  simpa using h q (List.mem_of_mem_filter hq)

theorem kept_concat_nil (absolute : Bool) (ps : List (List Char)) : kept absolute (ps ++ [[]]) = kept absolute ps := by
  simp [kept]

theorem kept_concat (hx : x ≠ []) (h : absolute = true ∨ kept absolute ps ≠ [] ∨ x ≠ ['.']) :
    kept absolute (ps ++ [x]) = kept absolute ps ++ [x] := by
  have hfilter : (ps ++ [x]).filter (· ≠ []) = ps.filter (· ≠ []) ++ [x] := by simp [hx]
  rw [kept] at h
  rw [kept, kept, hfilter]
  cases absolute with
  | true => rfl
  | false =>
    simp only [Bool.false_eq_true, if_false, false_or] at h ⊢
    rw [List.dropWhile_append]
    split
    · next hempty =>
      -- Behind steps that were all left out, a step that stays would be left out too.
      have hnil := List.isEmpty_iff.mp hempty
      have hdot := h.resolve_left (fun hne => hne hnil)
      rw [hnil]
      simp [hdot]
    · rfl

theorem kept_sublist (absolute : Bool) (ps : List (List Char)) : (kept absolute ps).Sublist ps := by
  rw [kept]
  split
  · exact List.filter_sublist
  · exact (List.dropWhile_sublist _).trans List.filter_sublist

theorem slash_not_mem_kept (h : ∀ q ∈ ps, '/' ∉ q) : ∀ q ∈ kept absolute ps, '/' ∉ q :=
  fun q hq => h q ((kept_sublist absolute ps).subset hq)

theorem slash_not_mem_lead (d : Path) : ∀ q ∈ d.lead, '/' ∉ q := fun _ hq => not_mem_of_mem_pieces (mem_lead hq)

theorem pieces_inside (d : Path) (hname : Slashless name) : pieces '/' (d.inside name).chars =
    (if d.isAbsolute then [[]] else []) ++ (kept d.isAbsolute d.lead ++ [name.toList]) := by
  rw [inside, pieces_toPath]
  · cases d.isAbsolute <;> rfl
  · cases d.isAbsolute <;> simp
  · simp
  · exact List.forall_mem_append.mpr ⟨slash_not_mem_kept d.slash_not_mem_lead, List.forall_mem_singleton.mpr hname⟩

theorem exists_dots (absolute : Bool) (ps : List (List Char)) :
    ∃ dots : List String, stepsOf ps = dots ++ stepsOf (kept absolute ps) ∧ ∀ s ∈ dots, s = "." := by
  have hsteps : stepsOf (ps.filter (· ≠ [])) = stepsOf ps := by simp [stepsOf]
  cases absolute with
  | true => exact ⟨[], hsteps.symm, List.forall_mem_nil _⟩
  | false =>
    refine ⟨stepsOf ((ps.filter (· ≠ [])).takeWhile (· = ['.'])), ?_, ?_⟩
    · rw [kept, if_neg Bool.false_ne_true, ← stepsOf_append, List.takeWhile_append_dropWhile, hsteps]
    · intro s hs
      obtain ⟨q, hq, rfl⟩ := List.mem_map.mp hs
      have hdot := List.mem_takeWhile_imp (List.mem_of_mem_filter hq)
      rw [of_decide_eq_true hdot]

theorem joinPieces_sublist {sep : Char} {ps qs : List (List Char)} (h : ps.Sublist qs) :
    (joinPieces sep ps).Sublist (joinPieces sep qs) := by
  induction h with
  | slnil => exact .slnil
  | @cons ps qs q _ ih =>
    cases qs with
    | nil => exact ih.trans (List.nil_sublist _)
    | cons r rs =>
      rw [joinPieces]
      exact (ih.cons sep).trans (List.sublist_append_right q _)
  | @cons_cons ps qs q h ih =>
    cases ps with
    | nil =>
      cases qs with
      | nil => exact List.Sublist.refl _
      | cons r rs => exact List.sublist_append_left q _
    | cons r rs =>
      have hmore : qs ≠ [] := fun hnil => by
        rw [hnil] at h
        cases h
      obtain ⟨r', rs', rfl⟩ := List.exists_cons_of_ne_nil hmore
      rw [joinPieces, joinPieces]
      exact (List.Sublist.refl q).append (ih.cons_cons sep)

theorem utf8ByteSize_of_sublist (h : p.chars.Sublist q.chars) : p.text.utf8ByteSize ≤ q.text.utf8ByteSize := by
  have hsize {cs ds : List Char} (h : cs.Sublist ds) :
      (String.ofList cs).utf8ByteSize ≤ (String.ofList ds).utf8ByteSize := by
    induction h with
    | slnil => exact Nat.le_refl _
    | cons c _ ih => simp at ih ⊢; omega
    | cons_cons c _ ih => simp at ih ⊢; omega
  have := hsize h
  simpa [chars] using this

theorem utf8ByteSize_inside (d : Path) (hname : Slashless name) :
    (d.inside name).text.utf8ByteSize ≤ (d.child name).text.utf8ByteSize := by
  apply utf8ByteSize_of_sublist
  rw [← joinPieces_pieces '/' (d.inside name).chars, ← joinPieces_pieces '/' (d.child name).chars, pieces_inside d hname,
    pieces_child_lead d hname]
  apply joinPieces_sublist
  exact (List.Sublist.refl _).append ((kept_sublist _ _).append (List.Sublist.refl _))

theorem isAbsolute_inside (d : Path) (hname : IsName name) : (d.inside name).isAbsolute = d.isAbsolute := by
  have hne : name.toList ≠ [] := fun h => hname.nonempty (String.toList_inj.mp h)
  have hpieces := pieces_inside d hname.slashless
  rw [← List.append_assoc] at hpieces
  rw [isAbsolute_of_pieces hpieces hne]
  cases d.isAbsolute with
  | true => rfl
  | false =>
    rw [beq_eq_false_iff_ne]
    intro hhead
    have hmem : [] ∈ kept false d.lead := List.mem_of_head? hhead
    rw [kept] at hmem
    simpa using List.of_mem_filter ((List.dropWhile_sublist _).subset hmem)

theorem steps_inside (d : Path) (hname : IsName name) :
    (d.inside name).steps = stepsOf (kept d.isAbsolute d.lead) ++ [name] := by
  show stepsOf (pieces '/' (d.inside name).chars) = _
  rw [pieces_inside d hname.slashless, stepsOf_append, stepsOf_append, stepsOf_name hname.nonempty]
  cases d.isAbsolute <;> rfl

theorem steps_child_lead (d : Path) (hname : IsName name) : (d.child name).steps = stepsOf d.lead ++ [name] := by
  show stepsOf (pieces '/' (d.child name).chars) = _
  rw [pieces_child_lead d hname.slashless, stepsOf_append, stepsOf_append, stepsOf_name hname.nonempty]
  cases d.isAbsolute <;> rfl

theorem mem_chars_iff {c : Char} (hc : c ≠ '/') : c ∈ p.chars ↔ ∃ s ∈ p.steps, c ∈ s.toList := by
  rw [mem_iff_mem_pieces hc, steps]
  constructor
  · rintro ⟨q, hq, hmem⟩
    have hne : q ≠ [] := List.ne_nil_of_mem hmem
    exact ⟨String.ofList q, List.mem_map_of_mem (List.mem_filter.mpr ⟨hq, by simpa using hne⟩), by simpa using hmem⟩
  · rintro ⟨s, hs, hmem⟩
    obtain ⟨q, hq, rfl⟩ := List.mem_map.mp hs
    exact ⟨q, List.mem_of_mem_filter hq, by simpa using hmem⟩

structure LeadsLike (q p : Path) (name : String) : Prop where
  fileName : q.fileName? = some name
  place : ∀ cwd, q.placeFrom cwd = p.placeFrom cwd
  lookup : ∀ t : FileTree, p.text.utf8ByteSize < FileTree.pathLimit → t.lookup q = t.lookup p

theorem ends_of_pieces {ps : List (List Char)} (h : pieces '/' p.chars = ps ++ [name.toList]) (hne : name ≠ "") :
    p.text ≠ "" ∧ p.endsInSeparator = false := by
  have hlast : ¬ (p.chars = [] ∨ p.chars.getLast? = some '/') := by
    rw [← getLast?_pieces, h, List.getLast?_concat, Option.some_inj]
    exact fun hnil => hne (String.toList_inj.mp hnil)
  obtain ⟨hnil, hslash⟩ := not_or.mp hlast
  refine ⟨fun hempty => hnil ?_, ?_⟩
  · rw [chars, hempty, String.toList_empty]
  · rw [endsInSeparator, beq_eq_false_iff_ne]
    exact hslash

theorem inside_leadsLike (d : Path) (hname : IsName name) : LeadsLike (d.inside name) (d.child name) name := by
  have hinside := pieces_inside d hname.slashless
  have hchild := pieces_child_lead d hname.slashless
  rw [← List.append_assoc] at hinside hchild
  obtain ⟨dots, hlead, hdots⟩ := exists_dots d.isAbsolute d.lead
  have hsteps : (d.child name).steps = dots ++ (d.inside name).steps := by
    rw [steps_child_lead d hname, steps_inside d hname, hlead, List.append_assoc]
  have habsolute : (d.inside name).isAbsolute = (d.child name).isAbsolute := by
    rw [isAbsolute_inside d hname, isAbsolute_child d hname.slashless]
  constructor
  case fileName => exact hname.fileName?_of_pieces hinside
  case place =>
    intro cwd
    rw [placeFrom, placeFrom, start, start, habsolute, hsteps, List.foldl_append, FileTree.foldl_step_dots hdots]
  case lookup =>
    intro t hshort
    obtain ⟨hne, hend⟩ := ends_of_pieces hinside hname.nonempty
    obtain ⟨hne', hend'⟩ := ends_of_pieces hchild hname.nonempty
    -- Leaving steps out makes the text shorter, so the limit is kept by both.
    have hshort' := Nat.lt_of_le_of_lt (utf8ByteSize_inside d hname.slashless) hshort
    have hzero : '\x00' ∈ (d.child name).chars ↔ '\x00' ∈ (d.inside name).chars := by
      rw [mem_chars_iff (by decide), mem_chars_iff (by decide), hsteps]
      simp only [List.mem_append, or_and_right, exists_or, or_iff_right_iff_imp]
      rintro ⟨s, hs, hmem⟩
      rw [hdots s hs] at hmem
      exact absurd hmem (by decide)
    have hlocate : t.locate (d.inside name) = t.locate (d.child name) := by
      by_cases hwhole : '\x00' ∈ (d.inside name).chars
      · rw [FileTree.locate, FileTree.locate, if_pos hwhole, if_pos (hzero.mpr hwhole)]
      · have hgoes : (d.inside name).steps ≠ [] := by simp [steps_inside d hname]
        rw [FileTree.locate_eq_follow hwhole hne hshort', FileTree.locate_eq_follow (mt hzero.mp hwhole) hne' hshort,
          hsteps, FileTree.follow_dots hdots hgoes, start, start, habsolute]
    rw [FileTree.lookup, FileTree.lookup, hlocate, hend, hend']

end Path

end NativeBuild
