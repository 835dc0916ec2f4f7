import Mathlib.Data.List.Infix
import NativeBuild.Text.Replace

namespace NativeBuild.Text

/-- A text, and what it becomes when a new text takes every place of the mark. Places are found from the left, and
one that overlaps an earlier one is none. -/
inductive Replaced (mark new : List Char) : List Char → List Char → Prop
  | done {text : List Char} (absent : ¬ mark <:+: text) : Replaced mark new text text
  | place {front rest rest' : List Char} (first : ¬ mark <:+: front ++ mark.dropLast)
      (further : Replaced mark new rest rest') : Replaced mark new (front ++ mark ++ rest) (front ++ new ++ rest')

variable {mark new text text' front rest : List Char} {c : Char}

theorem replaceAll_cons_of_not_isPrefix (h : ¬ mark <+: c :: text) :
    replaceAll mark new (c :: text) = c :: replaceAll mark new text := by
  rw [replaceAll, if_neg]
  rintro ⟨-, hstart⟩
  exact h (List.isPrefixOf_iff_prefix.mp hstart)

theorem replaceAll_mark (hmark : mark ≠ []) :
    replaceAll mark new (mark ++ rest) = new ++ replaceAll mark new rest := by
  cases mark with
  | nil => exact absurd rfl hmark
  | cons m ms =>
    have hstart : (m :: ms).isPrefixOf (m :: (ms ++ rest)) = true :=
      List.isPrefixOf_iff_prefix.mpr (List.prefix_append (m :: ms) rest)
    rw [List.cons_append, replaceAll, if_pos ⟨hmark, hstart⟩]
    simp

theorem replaceAll_of_not_isInfix (h : ¬ mark <:+: text) : replaceAll mark new text = text := by
  induction text with
  | nil => rw [replaceAll]
  | cons c text ih =>
    rw [List.infix_cons_iff, not_or] at h
    rw [replaceAll_cons_of_not_isPrefix h.1, ih h.2]

theorem append_dropLast_isPrefix : front ++ mark.dropLast <+: front ++ mark ++ rest := by
  rw [List.append_assoc, List.prefix_append_right_inj]
  exact (List.dropLast_prefix mark).trans (List.prefix_append mark rest)

/-- A mark that begins before its first place would end before it. -/
theorem not_isPrefix_of_first (h : ¬ mark <:+: c :: (front ++ mark.dropLast)) :
    ¬ mark <+: c :: (front ++ mark ++ rest) := by
  intro hstart
  apply h
  apply List.IsPrefix.isInfix
  apply List.prefix_of_prefix_length_le hstart ((List.prefix_cons_inj c).mpr append_dropLast_isPrefix)
  simp only [List.length_cons, List.length_append, List.length_dropLast]
  omega

theorem replaceAll_first (hmark : mark ≠ []) (h : ¬ mark <:+: front ++ mark.dropLast) :
    replaceAll mark new (front ++ mark ++ rest) = front ++ new ++ replaceAll mark new rest := by
  induction front with
  | nil => exact replaceAll_mark hmark
  | cons c front ih =>
    have hrest : ¬ mark <:+: front ++ mark.dropLast := fun hinfix => h (List.infix_cons hinfix)
    have hcut : replaceAll mark new (c :: (front ++ mark ++ rest)) = c :: replaceAll mark new (front ++ mark ++ rest) :=
      replaceAll_cons_of_not_isPrefix (not_isPrefix_of_first h)
    rw [List.cons_append, List.cons_append, hcut, ih hrest]
    rfl

theorem Replaced.cons (hstart : ¬ mark <+: c :: text) (h : Replaced mark new text text') :
    Replaced mark new (c :: text) (c :: text') := by
  cases h with
  | done absent =>
    apply Replaced.done
    rw [List.infix_cons_iff]
    exact not_or.mpr ⟨hstart, absent⟩
  | @place front rest rest' first further =>
    show Replaced mark new ((c :: front) ++ mark ++ rest) ((c :: front) ++ new ++ rest')
    refine .place ?_ further
    rw [List.cons_append, List.infix_cons_iff]
    refine not_or.mpr ⟨fun hshort => hstart (hshort.trans ?_), first⟩
    exact (List.prefix_cons_inj c).mpr append_dropLast_isPrefix

theorem replaced_replaceAll (hmark : mark ≠ []) (text : List Char) :
    Replaced mark new text (replaceAll mark new text) := by
  fun_induction replaceAll mark new text with
  | case1 => exact .done (fun h => hmark (List.infix_nil.mp h))
  | case2 c text hplace ih =>
    obtain ⟨rest, hrest⟩ := List.isPrefixOf_iff_prefix.mp hplace.2
    have hdrop : text.drop (mark.length - 1) = rest := by
      have hlength : 0 < mark.length := List.length_pos_iff.mpr hmark
      have htail := congrArg (List.drop mark.length) hrest
      rw [List.drop_left] at htail
      rw [htail, ← Nat.sub_add_cancel hlength]
      rfl
    have hshort : ¬ mark <:+: [] ++ mark.dropLast := by
      intro h
      have hlength := h.length_le
      rw [List.nil_append, List.length_dropLast] at hlength
      have hpos := List.length_pos_iff.mpr hmark
      omega
    rw [hdrop] at ih ⊢
    rw [← hrest]
    exact .place hshort ih
  | case3 c text hplace ih =>
    refine Replaced.cons (fun hstart => hplace ?_) ih
    exact ⟨hmark, List.isPrefixOf_iff_prefix.mpr hstart⟩

theorem replaced_iff (hmark : mark ≠ []) : Replaced mark new text text' ↔ text' = replaceAll mark new text := by
  constructor
  · intro h
    induction h with
    | done absent => exact (replaceAll_of_not_isInfix absent).symm
    | place first further ih => rw [replaceAll_first hmark first, ih]
  · rintro rfl
    exact replaced_replaceAll hmark text

end NativeBuild.Text
