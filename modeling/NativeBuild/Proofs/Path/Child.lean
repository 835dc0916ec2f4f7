import NativeBuild.Proofs.Path.Parent

namespace NativeBuild

def Slashless (name : String) : Prop := '/' ∉ name.toList

instance (name : String) : Decidable (Slashless name) := inferInstanceAs (Decidable (¬ _))

namespace Path

open Text

variable {p : Path} {name : String} {cwd : Place}

theorem mem_iff_mem_pieces {sep c : Char} (hc : c ≠ sep) {cs : List Char} :
    c ∈ cs ↔ ∃ q ∈ pieces sep cs, c ∈ q := by
  induction cs with
  | nil => simp [pieces]
  | cons x cs ih =>
    obtain ⟨q, qs, hq⟩ := List.exists_cons_of_ne_nil (pieces_ne_nil sep cs)
    rw [hq] at ih
    rw [List.mem_cons, ih, pieces, hq]
    split
    · next hx => simp [hx, hc]
    · simp [or_assoc]

theorem getLast?_pieces (sep : Char) (cs : List Char) : (pieces sep cs).getLast? = some [] ↔
    cs = [] ∨ cs.getLast? = some sep := by
  induction cs with
  | nil => simp [pieces]
  | cons c cs ih =>
    obtain ⟨q, qs, hq⟩ := List.exists_cons_of_ne_nil (pieces_ne_nil sep cs)
    rw [hq] at ih
    rw [pieces, hq]
    split
    · next hc =>
      rw [List.getLast?_cons_cons, ih, hc]
      cases cs <;> simp
    · next hc =>
      cases qs with
      | nil =>
        have hcs : cs = q := by rw [← joinPieces_pieces sep cs, hq, joinPieces]
        have hplain : sep ∉ cs := hcs ▸ not_mem_of_mem_pieces (hq ▸ List.mem_cons_self)
        have hlast : (c :: cs).getLast? ≠ some sep := by
          intro h
          obtain heq | hmem := List.mem_cons.mp (List.mem_of_getLast? h)
          · exact hc heq.symm
          · exact hplain hmem
        simp [hlast]
      | cons r rs =>
        rw [List.getLast?_cons_cons] at ih ⊢
        cases cs with
        | nil => simp [pieces] at hq
        | cons d cs => simpa using ih

theorem isAbsolute_of_slashless (hname : Slashless name) : (⟨name⟩ : Path).isAbsolute = false := by
  rw [isAbsolute, beq_eq_false_iff_ne]
  exact fun h => hname (List.mem_of_head? h)

theorem chars_child (p : Path) (hname : Slashless name) :
    ∃ sep, (sep = [] ∧ (p.chars = [] ∨ p.chars.getLast? = some '/') ∨
        sep = ['/'] ∧ p.chars ≠ [] ∧ p.chars.getLast? ≠ some '/') ∧
      (p.child name).chars = p.chars ++ sep ++ name.toList := by
  rw [child, join, isAbsolute_of_slashless hname, if_neg Bool.false_ne_true]
  split
  · next h => exact ⟨[], .inl ⟨rfl, .inl h⟩, by rw [h]; rfl⟩
  · next hne =>
    split
    · next h => exact ⟨[], .inl ⟨rfl, .inr h⟩, by simp [chars]⟩
    · next h => exact ⟨['/'], .inr ⟨rfl, hne, h⟩, by simp [chars]⟩

theorem pieces_child (p : Path) (hname : Slashless name) :
    pieces '/' (p.child name).chars = terminatedPieces '/' p.chars ++ [name.toList] := by
  have hlast : pieces '/' name.toList = [name.toList] := pieces_of_not_mem hname
  obtain ⟨sep, (⟨rfl, hempty | hend⟩ | ⟨rfl, hne, hopen⟩), hchars⟩ := chars_child p hname
  · rw [hchars, hempty]
    exact hlast
  · obtain ⟨front, hfront⟩ := List.getLast?_eq_some_iff.mp hend
    have hpieces : pieces '/' p.chars = pieces '/' front ++ [[]] := by
      rw [hfront, pieces_append_cons]
      rfl
    rw [hchars, terminatedPieces, hpieces, hfront, List.append_nil, List.append_assoc, List.singleton_append,
      pieces_append_cons, hlast]
    simp
  · have hpieces : ¬ (pieces '/' p.chars).getLast? = some [] := by simp [getLast?_pieces, hne, hopen]
    rw [hchars, terminatedPieces, if_neg hpieces, List.append_assoc, List.singleton_append, pieces_append_cons, hlast]

theorem terminatedPieces_of_pieces {cs : List Char} {ps : List (List Char)} {x : List Char}
    (h : pieces '/' cs = ps ++ [x]) : terminatedPieces '/' cs = if x = [] then ps else ps ++ [x] := by
  rw [terminatedPieces, h]
  simp

theorem pieces_eq_terminatedPieces (cs : List Char) :
    pieces '/' cs = terminatedPieces '/' cs ∨ pieces '/' cs = terminatedPieces '/' cs ++ [[]] := by
  obtain ⟨ps, x, hps⟩ : ∃ ps x, pieces '/' cs = ps ++ [x] :=
    ⟨_, _, (List.dropLast_concat_getLast (pieces_ne_nil '/' cs)).symm⟩
  rw [terminatedPieces_of_pieces hps, hps]
  split
  · next hx => exact .inr (by rw [hx])
  · exact .inl rfl

theorem terminatedPieces_ne_nil (hne : p.text ≠ "") : terminatedPieces '/' p.chars ≠ [] := by
  intro hnil
  obtain heq | heq := pieces_eq_terminatedPieces p.chars
  · exact pieces_ne_nil '/' p.chars (heq.trans hnil)
  · rw [hnil] at heq
    apply chars_ne_nil hne
    rw [← joinPieces_pieces '/' p.chars, heq]
    rfl

theorem stepsOf_terminatedPieces (cs : List Char) : stepsOf (terminatedPieces '/' cs) = stepsOf (pieces '/' cs) := by
  obtain heq | heq := pieces_eq_terminatedPieces cs
  · rw [heq]
  · rw [heq, stepsOf_append]
    simp [stepsOf]

theorem steps_child (p : Path) (hname : Slashless name) :
    (p.child name).steps = p.steps ++ stepsOf [name.toList] := by
  show stepsOf (pieces '/' (p.child name).chars) = stepsOf (pieces '/' p.chars) ++ _
  rw [pieces_child p hname, stepsOf_append, stepsOf_terminatedPieces]

theorem stepsOf_name (hne : name ≠ "") : stepsOf [name.toList] = [name] := by
  simp [stepsOf, hne]

theorem chars_isPrefix_child (p : Path) (hname : Slashless name) : p.chars <+: (p.child name).chars := by
  obtain ⟨sep, -, hchars⟩ := chars_child p hname
  rw [hchars, List.append_assoc]
  exact List.prefix_append _ _

theorem isAbsolute_child (p : Path) (hname : Slashless name) : (p.child name).isAbsolute = p.isAbsolute := by
  by_cases hne : p.text = ""
  · obtain rfl : p = ⟨""⟩ := congrArg Path.mk hne
    have hchild : (⟨""⟩ : Path).child name = ⟨name⟩ := by
      rw [child, join, isAbsolute_of_slashless hname]
      rfl
    rw [hchild, isAbsolute_of_slashless hname]
    rfl
  · exact (isAbsolute_of_isPrefix (chars_isPrefix_child p hname) hne).symm

theorem child_text_ne (hne : p.text ≠ "") (hname : Slashless name) : (p.child name).text ≠ "" := by
  obtain ⟨more, hmore⟩ := chars_isPrefix_child p hname
  intro hempty
  have hnil : (p.child name).chars = [] := by rw [chars, hempty, String.toList_empty]
  rw [hnil] at hmore
  exact chars_ne_nil hne (List.append_eq_nil_iff.mp hmore).1

theorem Proper.of_child (h : (p.child name).Proper) (hne : p.text ≠ "") (hname : Slashless name) : p.Proper := by
  have hbegins := chars_isPrefix_child p hname
  refine ⟨fun hmem => h.whole (hbegins.subset hmem), hne, ?_, fun s hs => h.steps_short s ?_⟩
  · exact Nat.lt_of_le_of_lt (utf8ByteSize_of_isPrefix hbegins) h.short
  · rw [steps_child p hname]
    exact List.mem_append_left _ hs

theorem last?_of_pieces {ps : List (List Char)} {x : List Char} (h : pieces '/' p.chars = ps ++ [x])
    (hx : isSilent x = false) : ∃ l, p.last? = some l ∧ l.piece = x := by
  have hbody : ∃ front, p.anatomy.body = front ++ [x] := by
    cases ps with
    | nil => exact ⟨[], by rw [anatomy_of_not_silent h hx]; rfl⟩
    | cons q qs =>
      by_cases hq : isSilent q = true
      · exact ⟨qs, by rw [anatomy_of_silent h hq (by simp)]; rfl⟩
      · exact ⟨q :: qs, by rw [anatomy_of_not_silent h (by simpa using hq)]; rfl⟩
  obtain ⟨front, hfront⟩ := hbody
  refine ⟨⟨p.anatomy.anchor, front, x, false⟩, ?_, rfl⟩
  rw [last?, hfront]
  simp [hx]

theorem components_eq_current_iff : p.components = [.current] ↔
    ∃ tail, pieces '/' p.chars = ['.'] :: tail ∧ ∀ q ∈ tail, isSilent q = true := by
  have hnames (ps : List (List Char)) : Component.current ∉ ps.map componentOfPiece := by
    rw [List.mem_map]
    rintro ⟨q, -, hq⟩
    rw [componentOfPiece] at hq
    split at hq <;> cases hq
  obtain ⟨q, qs, hpieces⟩ := List.exists_cons_of_ne_nil (pieces_ne_nil '/' p.chars)
  rw [hpieces]
  by_cases hq : isSilent q = true
  · rw [isSilent, Bool.or_eq_true, beq_iff_eq, beq_iff_eq] at hq
    obtain rfl | rfl := hq
    · cases qs <;> simp [components, anatomy, hpieces]
    · simp [components, anatomy, hpieces, List.filter_eq_nil_iff]
  · rw [components, anatomy_of_not_silent hpieces (by simpa using hq)]
    constructor
    · intro h
      exact absurd (h ▸ List.mem_singleton_self _) (hnames _)
    · rintro ⟨tail, heq, -⟩
      obtain ⟨rfl, -⟩ := List.cons.inj heq
      exact absurd rfl hq

end Path

structure IsName (name : String) : Prop where
  nonempty : name ≠ ""
  slashless : Slashless name
  not_current : name ≠ "."
  not_parent : name ≠ ".."

instance (name : String) : Decidable (IsName name) :=
  decidable_of_iff (name ≠ "" ∧ Slashless name ∧ name ≠ "." ∧ name ≠ "..")
    ⟨fun ⟨h₁, h₂, h₃, h₄⟩ => ⟨h₁, h₂, h₃, h₄⟩, fun ⟨h₁, h₂, h₃, h₄⟩ => ⟨h₁, h₂, h₃, h₄⟩⟩

namespace IsName

variable {name : String} {p : Path}

theorem not_silent (h : IsName name) : Path.isSilent name.toList = false := by
  rw [Path.isSilent, Bool.or_eq_false_iff, beq_eq_false_iff_ne, beq_eq_false_iff_ne]
  exact ⟨fun heq => h.nonempty (String.toList_inj.mp heq), fun heq => h.not_current (String.toList_inj.mp heq)⟩

theorem step_eq (h : IsName name) (place : Place) : FileTree.step place name = place ++ [name] := by
  rw [FileTree.step, if_neg h.not_current, if_neg h.not_parent]

theorem fileName?_of_pieces (h : IsName name) {ps : List (List Char)}
    (hp : Text.pieces '/' p.chars = ps ++ [name.toList]) : p.fileName? = some name := by
  obtain ⟨l, hlast, hpiece⟩ := Path.last?_of_pieces hp h.not_silent
  have hdots : name.toList ≠ ['.', '.'] := fun heq => h.not_parent (String.toList_inj.mp heq)
  simp [Path.fileName?, hlast, hpiece, hdots]

theorem fileName?_child (h : IsName name) (p : Path) : (p.child name).fileName? = some name :=
  h.fileName?_of_pieces (Path.pieces_child p h.slashless)

end IsName

namespace FileTree

variable {t : FileTree} {place : Place} {p : Path} {name : String}

theorem wayFrom_child (p : Path) (hname : Slashless name) (cwd : Place) :
    (p.child name).wayFrom cwd = p.wayFrom cwd ++ stops (p.placeFrom cwd) (Path.stepsOf [name.toList]) := by
  rw [Path.wayFrom, Path.wayFrom, Path.placeFrom, Path.steps_child p hname, stops_append, Path.start, Path.start,
    Path.isAbsolute_child p hname]

theorem placeFrom_child (p : Path) (hname : Slashless name) (cwd : Place) :
    (p.child name).placeFrom cwd = (Path.stepsOf [name.toList]).foldl step (p.placeFrom cwd) := by
  rw [Path.placeFrom, Path.placeFrom, Path.steps_child p hname, List.foldl_append, Path.start, Path.start,
    Path.isAbsolute_child p hname]

theorem locate_of_child (hne : p.text ≠ "") (hname : Slashless name) (h : t.locate (p.child name) = .ok place) :
    t.locate p = .ok (p.placeFrom t.workingDirectory) := by
  obtain ⟨hproper, hway, -⟩ := locate_eq_ok_iff.mp h
  rw [wayFrom_child p hname, List.forall_mem_append] at hway
  exact locate_eq_ok_iff.mpr ⟨hproper.of_child hne hname, hway.1, rfl⟩

theorem isDirectory_of_child (hne : p.text ≠ "") (hname : Slashless name) (hstep : name ≠ "")
    (h : t.locate (p.child name) = .ok place) : t.isDirectory p = true := by
  obtain ⟨-, hway, -⟩ := locate_eq_ok_iff.mp h
  rw [wayFrom_child p hname, List.forall_mem_append, Path.stepsOf_name hstep, stops, List.forall_mem_cons] at hway
  exact isDirectory_iff.mpr ⟨_, locate_of_child hne hname h, hway.2.1⟩

theorem isDirectory_of_isDirectory_child (hne : p.text ≠ "") (hname : Slashless name)
    (h : t.isDirectory (p.child name) = true) : t.isDirectory p = true := by
  obtain ⟨place, hplace, hnode⟩ := isDirectory_iff.mp h
  by_cases hstep : name = ""
  · subst hstep
    have hsame : (p.child "").placeFrom t.workingDirectory = p.placeFrom t.workingDirectory := placeFrom_child p hname _
    rw [← placeFrom_of_locate hplace, hsame] at hnode
    exact isDirectory_iff.mpr ⟨_, locate_of_child hne hname hplace, hnode⟩
  · exact isDirectory_of_child hne hname hstep hplace

end FileTree

end NativeBuild
