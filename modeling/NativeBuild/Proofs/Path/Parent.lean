import NativeBuild.Proofs.Files.Effects
import NativeBuild.Proofs.Path.Pieces

namespace NativeBuild

theorem Text.joinPieces_isPrefix {sep : Char} {ps : List (List Char)} (h : ps ≠ []) (qs : List (List Char)) :
    joinPieces sep ps <+: joinPieces sep (ps ++ qs) := by
  induction ps with
  | nil => exact absurd rfl h
  | cons p ps ih =>
    cases ps with
    | nil =>
      cases qs with
      | nil => exact List.prefix_rfl
      | cons q qs => exact List.prefix_append p _
    | cons p' ps =>
      have hrest := ih (List.cons_ne_nil p' ps)
      exact (List.prefix_append_right_inj p).mpr ((List.prefix_cons_inj sep).mpr hrest)

namespace Path

open Text

variable {p parent : Path} {l : Last}

theorem dropSilentEnd_append (ps : List (List Char)) :
    ∃ tail, ps = dropSilentEnd ps ++ tail := by
  refine ⟨(ps.reverse.takeWhile isSilent).reverse, ?_⟩
  rw [dropSilentEnd, ← List.reverse_append, List.takeWhile_append_dropWhile, List.reverse_reverse]

theorem stepsOf_append (xs ys : List (List Char)) : stepsOf (xs ++ ys) = stepsOf xs ++ stepsOf ys := by
  simp [stepsOf]

theorem chars_ne_nil (h : p.text ≠ "") : p.chars ≠ [] := fun hnil => h (String.toList_inj.mp hnil)

theorem toPath_isPrefix {a : Anatomy} {rest : List (List Char)}
    (hanchor : a.anchor = none ∨ a.anchor = some [] ∨ a.anchor = some ['.'])
    (hpieces : pieces '/' p.chars = (a.anchor.toList ++ a.body) ++ rest) (hrest : rest ≠ [])
    (hne : a.toPath.text ≠ "") : a.toPath.chars <+: p.chars := by
  obtain ⟨anchor, body⟩ := a
  rw [← joinPieces_pieces '/' p.chars, hpieces]
  obtain rfl | rfl | rfl := hanchor
  · rw [Anatomy.toPath] at hne ⊢
    have hbody : body ≠ [] := by
      rintro rfl
      exact hne rfl
    rw [chars_ofChars]
    exact joinPieces_isPrefix hbody rest
  · rw [Anatomy.toPath, chars_ofChars]
    have hmore : body ++ rest ≠ [] := by simp [hrest]
    show '/' :: joinPieces '/' body <+: joinPieces '/' ([] :: (body ++ rest))
    rw [joinPieces_nil_cons hmore, List.prefix_cons_inj]
    cases body with
    | nil => exact List.nil_prefix
    | cons q body => exact joinPieces_isPrefix (List.cons_ne_nil q body) rest
  · rw [Anatomy.toPath, chars_ofChars]
    exact joinPieces_isPrefix (List.cons_ne_nil _ _) rest

theorem steps_toPath {a : Anatomy} (hanchor : a.anchor = none ∨ a.anchor = some [] ∨ a.anchor = some ['.'])
    (hbody : ∀ q ∈ a.body, '/' ∉ q) (hne : a.toPath.text ≠ "") :
    a.toPath.steps = stepsOf (a.anchor.toList ++ a.body) := by
  by_cases hnil : a.body = []
  · obtain ⟨anchor, body⟩ := a
    obtain rfl : body = [] := hnil
    obtain rfl | rfl | rfl := hanchor
    · exact absurd rfl hne
    · rw [steps, Anatomy.toPath, chars_ofChars]
      rfl
    · rw [steps, Anatomy.toPath, chars_ofChars]
      rfl
  · rw [steps, pieces_toPath hanchor hnil hbody, stepsOf]

theorem last?_of_parent? (h : p.parent? = some parent) (hne : parent.text ≠ "") :
    ∃ l, p.last? = some l ∧ parent = Anatomy.toPath ⟨l.anchor, dropSilentEnd l.front⟩ := by
  rw [parent?] at h
  split at h
  · next l hlast => exact ⟨l, hlast, (Option.some.inj h).symm⟩
  · split at h
    · obtain rfl := Option.some.inj h
      exact absurd rfl hne
    · cases h

theorem starts_with_parent (h : p.parent? = some parent) (hne : parent.text ≠ "") :
    parent.chars <+: p.chars ∧ ∃ name rest, p.steps = parent.steps ++ name :: rest := by
  obtain ⟨l, hlast, rfl⟩ := last?_of_parent? h hne
  obtain ⟨tail, hpieces, -, hpiece⟩ := pieces_of_last? hlast
  obtain ⟨silent, hfront⟩ := dropSilentEnd_append l.front
  have hanchor := anchor_of_last? hlast
  have hsplit : pieces '/' p.chars =
      (l.anchor.toList ++ dropSilentEnd l.front) ++ (silent ++ l.piece :: tail) := by
    rw [hpieces, List.append_assoc, List.append_assoc, ← List.append_assoc (dropSilentEnd l.front), ← hfront]
  have hslash : ∀ q ∈ dropSilentEnd l.front, '/' ∉ q := by
    intro q hq
    apply slash_not_mem_front hlast
    rw [hfront]
    exact List.mem_append_left _ hq
  have hnonempty : l.piece ≠ [] := fun hnil => by rw [hnil] at hpiece; cases hpiece
  refine ⟨toPath_isPrefix hanchor hsplit (by simp) hne, ?_⟩
  rw [steps_toPath hanchor hslash hne]
  have hsteps : p.steps = stepsOf (pieces '/' p.chars) := rfl
  have hmore : stepsOf (silent ++ l.piece :: tail) ≠ [] := by simp [stepsOf, hnonempty]
  obtain ⟨name, rest, hname⟩ := List.exists_cons_of_ne_nil hmore
  exact ⟨name, rest, by rw [hsteps, hsplit, stepsOf_append, hname]⟩

theorem isAbsolute_of_isPrefix {q : Path} (h : q.chars <+: p.chars) (hne : q.text ≠ "") :
    q.isAbsolute = p.isAbsolute := by
  obtain ⟨more, hmore⟩ := h
  obtain ⟨c, cs, hcs⟩ := List.exists_cons_of_ne_nil (chars_ne_nil hne)
  rw [isAbsolute, isAbsolute, ← hmore, hcs]
  rfl

theorem isAbsolute_parent (h : p.parent? = some parent) (hne : parent.text ≠ "") :
    parent.isAbsolute = p.isAbsolute :=
  isAbsolute_of_isPrefix (starts_with_parent h hne).1 hne

theorem utf8ByteSize_of_isPrefix {q : Path} (h : q.chars <+: p.chars) : q.text.utf8ByteSize ≤ p.text.utf8ByteSize := by
  obtain ⟨more, hmore⟩ := h
  have htext : p.text = q.text ++ String.ofList more := by
    apply String.toList_inj.mp
    rw [String.toList_append, String.toList_ofList]
    exact hmore.symm
  rw [htext, String.utf8ByteSize_append]
  omega

theorem allowed_parent (h : p.parent? = some parent) (hne : parent.text ≠ "") (hwhole : '\x00' ∉ p.chars)
    (hshort : p.text.utf8ByteSize < FileTree.pathLimit) :
    '\x00' ∉ parent.chars ∧ parent.text.utf8ByteSize < FileTree.pathLimit := by
  obtain ⟨hbegins, -⟩ := starts_with_parent h hne
  exact ⟨fun hmem => hwhole (hbegins.subset hmem), Nat.lt_of_le_of_lt (utf8ByteSize_of_isPrefix hbegins) hshort⟩

theorem Proper.of_parent? (hp : p.Proper) (h : p.parent? = some parent) (hne : parent.text ≠ "") : parent.Proper := by
  obtain ⟨hwhole, hshort⟩ := allowed_parent h hne hp.whole hp.short
  obtain ⟨-, name, rest, hsteps⟩ := starts_with_parent h hne
  exact ⟨hwhole, hne, hshort, fun s hs => hp.steps_short s (hsteps ▸ List.mem_append_left _ hs)⟩

end Path

namespace FileTree

variable {t : FileTree} {place : Place} {p parent : Path}

theorem stops_append (place : Place) (xs ys : List String) :
    stops place (xs ++ ys) = stops place xs ++ stops (xs.foldl step place) ys := by
  induction xs generalizing place with
  | nil => rfl
  | cons x xs ih => rw [List.cons_append, stops, ih, stops, List.foldl_cons, List.cons_append]

theorem isDirectory_parent (hparent : p.parent? = some parent) (hne : parent.text ≠ "")
    (h : t.locate p = .ok place) : t.isDirectory parent = true := by
  obtain ⟨hproper, hway, -⟩ := locate_eq_ok_iff.mp h
  obtain ⟨-, name, rest, hsteps⟩ := Path.starts_with_parent hparent hne
  have hstart : parent.start t.workingDirectory = p.start t.workingDirectory := by
    rw [Path.start, Path.start, Path.isAbsolute_parent hparent hne]
  rw [Path.wayFrom, hsteps, ← hstart, stops_append, List.forall_mem_append, stops, List.forall_mem_cons] at hway
  obtain ⟨hway, hplace, -⟩ := hway
  refine isDirectory_iff.mpr ⟨parent.placeFrom t.workingDirectory, ?_, hplace⟩
  exact locate_eq_ok_iff.mpr ⟨hproper.of_parent? hparent hne, hway, rfl⟩

end FileTree

end NativeBuild
