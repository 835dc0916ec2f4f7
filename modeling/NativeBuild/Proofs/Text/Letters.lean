import NativeBuild.Proofs.Text.Runs
import NativeBuild.Text.Split
import Mathlib.Data.List.Forall2
import Mathlib.Data.List.TakeWhile

namespace NativeBuild.Text

variable {c : Char} {cs : List Char} {s s' : String}

theorem forall_range {P : Char → Prop} {first count : Nat} (h : ∀ n ∈ List.range' first count, P (Char.ofNat n))
    (hc : c.toNat ∈ List.range' first count) : P c := by
  have hn := h c.toNat hc
  rwa [Char.ofNat_toNat] at hn

theorem isUpper_iff : c.isUpper = true ↔ c.toNat ∈ List.range' 65 26 := by
  show decide (c.val ≥ 65 ∧ c.val ≤ 90) = true ↔ _
  rw [decide_eq_true_eq, ge_iff_le, UInt32.le_iff_toNat_le, UInt32.le_iff_toNat_le, List.mem_range'_1]
  exact and_congr_right' Nat.lt_succ_iff.symm

theorem isLower_eq_true_iff : c.isLower = true ↔ c.val ≥ 97 ∧ c.val ≤ 122 := by
  show (decide (c.val ≥ 97) && decide (c.val ≤ 122)) = true ↔ _
  rw [Bool.and_eq_true, decide_eq_true_eq, decide_eq_true_eq]

theorem isLower_iff : c.isLower = true ↔ c.toNat ∈ List.range' 97 26 := by
  rw [isLower_eq_true_iff, ge_iff_le, UInt32.le_iff_toNat_le, UInt32.le_iff_toNat_le, List.mem_range'_1]
  exact and_congr_right' Nat.lt_succ_iff.symm

theorem toLower_of_not_isUpper (h : c.isUpper = false) : c.toLower = c := dif_neg (of_decide_eq_false h)

theorem toUpper_of_not_isLower (h : c.isLower = false) : c.toUpper = c := by
  have hrange : ¬ (c.val ≥ 97 ∧ c.val ≤ 122) := by
    rw [← isLower_eq_true_iff, h]
    exact Bool.false_ne_true
  exact dif_neg hrange

theorem not_isUpper_toLower (c : Char) : c.toLower.isUpper = false := by
  cases h : c.isUpper with
  | false => rwa [toLower_of_not_isUpper h]
  | true => exact forall_range (P := fun c => c.toLower.isUpper = false) (by decide) (isUpper_iff.mp h)

theorem toLower_toLower (c : Char) : c.toLower.toLower = c.toLower :=
  toLower_of_not_isUpper (not_isUpper_toLower c)

theorem toLower_toUpper (c : Char) : c.toUpper.toLower = c.toLower := by
  cases h : c.isLower with
  | false => rw [toUpper_of_not_isLower h]
  | true => exact forall_range (P := fun c => c.toUpper.toLower = c.toLower) (by decide) (isLower_iff.mp h)

theorem isBlank_toLower (c : Char) : isBlank c.toLower = isBlank c := by
  cases h : c.isUpper with
  | false => rw [toLower_of_not_isUpper h]
  | true => exact forall_range (P := fun c => isBlank c.toLower = isBlank c) (by decide) (isUpper_iff.mp h)

theorem toLower_eq_comma_iff : c.toLower = ',' ↔ c = ',' := by
  cases h : c.isUpper with
  | false => rw [toLower_of_not_isUpper h]
  | true => exact forall_range (P := fun c => c.toLower = ',' ↔ c = ',') (by decide) (isUpper_iff.mp h)

def Recased (s s' : String) : Prop :=
  List.Forall₂ (fun c d => d = c ∨ d = c.toLower ∨ d = c.toUpper) s.toList s'.toList

theorem Recased.lowerAscii_eq (h : Recased s s') : lowerAscii s' = lowerAscii s := by
  have hmap {cs ds : List Char} (h : List.Forall₂ (fun c d => d = c ∨ d = c.toLower ∨ d = c.toUpper) cs ds) :
      ds.map Char.toLower = cs.map Char.toLower := by
    induction h with
    | nil => rfl
    | cons hcd _ ih =>
      rw [List.map_cons, List.map_cons, ih]
      obtain rfl | rfl | rfl := hcd
      · rfl
      · rw [toLower_toLower]
      · rw [toLower_toUpper]
  rw [lowerAscii, lowerAscii, hmap h]

theorem lowerAscii_of_small (h : ∀ c ∈ s.toList, c.isUpper = false) : lowerAscii s = s := by
  have hmap : s.toList.map Char.toLower = s.toList :=
    (List.map_congr_left fun c hc => toLower_of_not_isUpper (h c hc)).trans (List.map_id _)
  rw [lowerAscii, hmap, String.ofList_toList]

theorem pieces_map {sep : Char} {f : Char → Char} (h : ∀ c, f c = sep ↔ c = sep) (cs : List Char) :
    pieces sep (cs.map f) = (pieces sep cs).map (List.map f) := by
  induction cs with
  | nil => rfl
  | cons c cs ih =>
    rw [List.map_cons, pieces, pieces]
    by_cases hc : c = sep
    · rw [if_pos hc, if_pos ((h c).mpr hc), ih]
      rfl
    · rw [if_neg hc, if_neg (mt (h c).mp hc), ih]
      obtain ⟨p, ps, hps⟩ := List.exists_cons_of_ne_nil (pieces_ne_nil sep cs)
      rw [hps]
      rfl

theorem trim_map_toLower (cs : List Char) : trim (cs.map Char.toLower) = (trim cs).map Char.toLower := by
  have hblank : isBlank ∘ Char.toLower = isBlank := funext isBlank_toLower
  simp only [trim, trimStart, trimEnd, List.dropWhile_map, ← List.map_reverse, hblank]

theorem trim_of_stops (hstart : Stops isBlank cs) (hfinish : Stops isBlank cs.reverse) : trim cs = cs := by
  rw [trim, trimStart_of_stops hstart, trimEnd_of_stops hfinish]

theorem stops_trimEnd (h : Stops isBlank cs) : Stops isBlank (trimEnd cs) := by
  cases cs with
  | nil => exact stops_nil
  | cons c cs =>
    rw [← List.nil_append (c :: cs), trimEnd_append (by simpa using h)]
    exact h

theorem stops_trim (cs : List Char) : Stops isBlank (trim cs) ∧ Stops isBlank (trim cs).reverse :=
  ⟨stops_trimEnd stops_trimStart, stops_reverse_trimEnd⟩

theorem mem_of_mem_trim (h : c ∈ trim cs) : c ∈ cs := mem_of_mem_trimStart (mem_of_mem_trimEnd h)

def Padded (cs ds : List Char) : Prop :=
  ∃ before after, (∀ c ∈ before, isBlank c = true) ∧ (∀ c ∈ after, isBlank c = true) ∧ ds = before ++ cs ++ after

theorem Padded.trim_eq {ds : List Char} (h : Padded cs ds) : trim ds = trim cs := by
  obtain ⟨before, after, hbefore, hafter, rfl⟩ := h
  have hstart : trimStart (before ++ cs ++ after) = trimStart (cs ++ after) := by
    rw [trimStart, List.append_assoc, List.dropWhile_append_of_pos hbefore, trimStart]
  have hfinish (run : List Char) : trimEnd (run ++ after) = trimEnd run := by
    have hreverse : ∀ c ∈ after.reverse, isBlank c = true := fun c hc => hafter c (List.mem_reverse.mp hc)
    rw [trimEnd, List.reverse_append, List.dropWhile_append_of_pos hreverse, trimEnd]
  rw [trim, hstart, trim, trimStart, List.dropWhile_append]
  split
  · next hnone =>
    have hcs : trimStart cs = [] := List.isEmpty_iff.mp hnone
    rw [hcs, List.dropWhile_eq_nil_iff.mpr hafter]
  · exact hfinish _

end NativeBuild.Text
