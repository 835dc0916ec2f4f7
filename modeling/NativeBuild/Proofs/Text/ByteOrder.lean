import NativeBuild.Text.Utf8

namespace NativeBuild.Text

theorem toNat_val_lt (c : Char) : c.val.toNat < 0x110000 := by
  have h := c.valid
  simp only [UInt32.isValidChar, Nat.isValidChar] at h
  omega

theorem octet_cons_lt {a b : Nat} {xs ys : List UInt8} (ha : a < 256) (hb : b < 256) (hab : a ≤ b)
    (h : a = b → xs < ys) : UInt8.ofNat a :: xs < UInt8.ofNat b :: ys := by
  rw [List.cons_lt_cons_iff]
  rcases Nat.lt_or_eq_of_le hab with hlt | heq
  · left
    rw [UInt8.lt_iff_toNat_lt, UInt8.toNat_ofNat_of_lt' ha, UInt8.toNat_ofNat_of_lt' hb]
    exact hlt
  · exact Or.inr ⟨congrArg UInt8.ofNat heq, h heq⟩

theorem utf8EncodeChar_append_lt {c d : Char} (h : c < d) (xs ys : List UInt8) :
    String.utf8EncodeChar c ++ xs < String.utf8EncodeChar d ++ ys := by
  have hcd : c.val.toNat < d.val.toNat := h
  have hd := toNat_val_lt d
  simp only [String.utf8EncodeChar]
  generalize c.val.toNat = m at hcd ⊢
  generalize d.val.toNat = n at hcd hd ⊢
  -- characters of different widths differ in the first byte, others in a digit to the base of 64
  repeat' split
  all_goals
    simp only [List.cons_append, List.nil_append]
    repeat' first | omega | apply octet_cons_lt | intro _

theorem encodeUtf8_lt {as bs : List Char} (h : as < bs) : encodeUtf8 as < encodeUtf8 bs := by
  induction h with
  | @nil b bs =>
    have hlen := String.length_utf8EncodeChar b
    have hpos := b.utf8Size_pos
    rw [encodeUtf8, encodeUtf8, List.flatMap_cons, List.flatMap_nil]
    cases hb : String.utf8EncodeChar b with
    | nil =>
      rw [hb, List.length_nil] at hlen
      omega
    | cons x xs => exact List.nil_lt_cons _ _
  | rel hab => exact utf8EncodeChar_append_lt hab _ _
  | cons _ ih => exact List.append_left_lt ih

theorem encodeUtf8_toList_lt {a b : String} (h : compare a b = .lt) :
    encodeUtf8 a.toList < encodeUtf8 b.toList := by
  have hab : a < b := compareOfLessAndEq_eq_lt.mp h
  exact encodeUtf8_lt hab

end NativeBuild.Text
