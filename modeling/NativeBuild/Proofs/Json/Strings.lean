import NativeBuild.Json.Reader

namespace NativeBuild.JsonValue

open Text (hexValue? readHexDigits)

inductive UnitSpelled : Nat → List Char → Prop
  | itself {c : Char} (control : 0x20 ≤ c.toNat) (quote : c ≠ '"') (backslash : c ≠ '\\') : UnitSpelled c.toNat [c]
  | short {e c : Char} (h : escaped? e = some c) : UnitSpelled c.toNat ['\\', e]
  | hex {a b c d : Char} {i j k l : Nat} (ha : hexValue? a = some i) (hb : hexValue? b = some j)
      (hc : hexValue? c = some k) (hd : hexValue? d = some l) :
      UnitSpelled (16 * (16 * (16 * i + j) + k) + l) ['\\', 'u', a, b, c, d]

inductive UnitsSpelled : List Nat → List Char → Prop
  | nil : UnitsSpelled [] []
  | cons {n : Nat} {unit : List Char} {units : List Nat} {body : List Char} (head : UnitSpelled n unit)
      (tail : UnitsSpelled units body) : UnitsSpelled (n :: units) (unit ++ body)

inductive TextUnits : List Char → List Nat → Prop
  | nil : TextUnits [] []
  | one {c : Char} {cs : List Char} {units : List Nat} (rest : TextUnits cs units) :
      TextUnits (c :: cs) (c.toNat :: units)
  | pair {c : Char} {cs : List Char} {units : List Nat} {high low : Nat} (hhigh : isHighHalf high = true)
      (hlow : isLowHalf low = true) (hc : c.toNat = 0x10000 + (high - 0xd800) * 0x400 + (low - 0xdc00))
      (rest : TextUnits cs units) : TextUnits (c :: cs) (high :: low :: units)

inductive Quoted : Option String → List Char → Prop
  | text {s : String} {units : List Nat} {body : List Char} (spelled : UnitsSpelled units body)
      (hunits : TextUnits s.toList units) : Quoted (some s) ('"' :: (body ++ ['"']))
  | noText {units : List Nat} {body : List Char} (spelled : UnitsSpelled units body)
      (hunits : ∀ cs, ¬ TextUnits cs units) : Quoted none ('"' :: (body ++ ['"']))

variable {cs rest unit body : List Char} {units : List Nat} {n : Nat} {c : Char} {s : Option String}

theorem codePoint_lt (c : Char) : c.toNat < 0x110000 := by
  have h : c.toNat < 0xd800 ∨ 0xdfff < c.toNat ∧ c.toNat < 0x110000 := c.valid
  omega

theorem hexValue?_lt (h : hexValue? c = some n) : n < 16 := by
  unfold hexValue? at h
  simp only [Bool.and_eq_true, decide_eq_true_eq, Char.le_def, UInt32.le_iff_toNat_le] at h
  have hrange : ('0'.toNat ≤ c.toNat ∧ c.toNat ≤ '9'.toNat ∧ n = c.toNat - '0'.toNat) ∨
      ('a'.toNat ≤ c.toNat ∧ c.toNat ≤ 'f'.toNat ∧ n = c.toNat - 'a'.toNat + 10) ∨
      ('A'.toNat ≤ c.toNat ∧ c.toNat ≤ 'F'.toNat ∧ n = c.toNat - 'A'.toNat + 10) := by
    split at h
    · next hc => exact .inl ⟨hc.1, hc.2, (Option.some.inj h).symm⟩
    · split at h
      · next hc => exact .inr (.inl ⟨hc.1, hc.2, (Option.some.inj h).symm⟩)
      · split at h
        · next hc => exact .inr (.inr ⟨hc.1, hc.2, (Option.some.inj h).symm⟩)
        · cases h
  simp only [Char.reduceToNat] at hrange
  omega

theorem UnitSpelled.lt (h : UnitSpelled n unit) : n < 0x110000 := by
  cases h with
  | itself | short => exact codePoint_lt _
  | hex ha hb hc hd =>
    have hi := hexValue?_lt ha
    have hj := hexValue?_lt hb
    have hk := hexValue?_lt hc
    have hl := hexValue?_lt hd
    omega

theorem readUnits_append (h : UnitSpelled n unit) :
    readUnits (unit ++ rest) = (readUnits rest).map (fun (units, rest) => (n :: units, rest)) := by
  cases h with
  | @itself c control quote backslash =>
    have hc : (decide (c.toNat < 0x20) || c == '\\') = false := by simp [backslash]; omega
    rw [List.cons_append, List.nil_append, readUnits]
    · rw [hc]
      rfl
    all_goals simp_all
  | @short e c h =>
    have he : e ≠ 'u' := by rintro rfl; cases h
    rw [List.cons_append, List.cons_append, List.nil_append, readUnits]
    · rw [h]
      cases readUnits rest <;> rfl
    · simp_all
  | hex ha hb hc hd =>
    simp only [List.cons_append, List.nil_append, readUnits, readHexDigits, ha, hb, hc, hd, Option.bind_some]
    cases readUnits rest <;> simp

theorem readUnits_spelled (h : UnitsSpelled units body) : readUnits (body ++ '"' :: rest) = some (units, rest) := by
  induction h with
  | nil => rw [List.nil_append, readUnits]
  | cons head _ ih =>
    rw [List.append_assoc, readUnits_append head, ih]
    rfl

theorem spelled_of_readUnits (h : readUnits cs = some (units, rest)) :
    ∃ body, cs = body ++ '"' :: rest ∧ UnitsSpelled units body := by
  fun_induction readUnits cs generalizing units with
  | case1 => cases h
  | case2 rest' =>
    obtain ⟨rfl, rfl⟩ := Prod.mk.inj (Option.some.inj h)
    exact ⟨[], rfl, .nil⟩
  | case3 a b c d more ih =>
    simp only [readHexDigits, Nat.mul_zero, Nat.zero_add, Option.bind_eq_bind, Option.bind_eq_some_iff,
      Option.pure_def, Option.some.injEq, Prod.exists, Prod.mk.injEq] at h
    obtain ⟨n, ⟨i, ha, j, hb, k, hc, l, hd, rfl⟩, units, _, hmore, rfl, rfl⟩ := h
    obtain ⟨body, rfl, spelled⟩ := ih hmore
    exact ⟨_, rfl, .cons (.hex ha hb hc hd) spelled⟩
  | case4 e more hex ih =>
    simp only [Option.bind_eq_bind, Option.bind_eq_some_iff, Option.pure_def, Option.some.injEq,
      Prod.exists, Prod.mk.injEq] at h
    obtain ⟨c, he, units, _, hmore, rfl, rfl⟩ := h
    obtain ⟨body, rfl, spelled⟩ := ih hmore
    exact ⟨_, rfl, .cons (.short he) spelled⟩
  | case5 c more => cases h
  | case6 c more quote hex short hc ih =>
    obtain ⟨⟨units, _⟩, hmore, h⟩ := Option.map_eq_some_iff.mp h
    obtain ⟨rfl, rfl⟩ := Prod.mk.inj h
    obtain ⟨body, rfl, spelled⟩ := ih hmore
    have hplain : 0x20 ≤ c.toNat ∧ c ≠ '\\' := by simpa using hc
    exact ⟨c :: body, rfl, .cons (.itself hplain.1 (fun hq => quote hq) hplain.2) spelled⟩

theorem UnitsSpelled.lt (h : UnitsSpelled units body) : ∀ n ∈ units, n < 0x110000 := by
  induction h with
  | nil => exact List.forall_mem_nil _
  | cons head _ ih => exact List.forall_mem_cons.mpr ⟨head.lt, ih⟩

theorem not_half_iff (hn : n < 0x110000) : (isHighHalf n || isLowHalf n) = false ↔ n.isValidChar := by
  simp [isHighHalf, isLowHalf, Nat.isValidChar]
  omega

theorem joinHalves_cons (hn : (isHighHalf n || isLowHalf n) = false) :
    joinHalves (n :: units) = (joinHalves units).map (Char.ofNat n :: ·) := by
  obtain ⟨hhigh, hlow⟩ := Bool.or_eq_false_iff.mp hn
  cases units with
  | nil => simp [joinHalves, hn]
  | cons m units => simp [joinHalves, hhigh, hlow]

theorem joinHalves_textUnits (h : TextUnits cs units) : joinHalves units = some cs := by
  induction h with
  | nil => rfl
  | @one c cs units _ ih =>
    rw [joinHalves_cons ((not_half_iff (codePoint_lt c)).mpr c.valid), ih, Char.ofNat_toNat]
    rfl
  | @pair c cs units high low hhigh hlow hc _ ih =>
    rw [joinHalves, if_pos hhigh, if_pos hlow, ih, ← hc, Char.ofNat_toNat]
    rfl

theorem toNat_ofNat (h : n.isValidChar) : (Char.ofNat n).toNat = n := by
  rw [Char.ofNat, dif_pos h]
  rfl

theorem TextUnits.ofNat (hn : n < 0x110000) (hhalf : (isHighHalf n || isLowHalf n) = false)
    (rest : TextUnits cs units) : TextUnits (Char.ofNat n :: cs) (n :: units) := by
  have hone := TextUnits.one (c := Char.ofNat n) rest
  rwa [toNat_ofNat ((not_half_iff hn).mp hhalf)] at hone

theorem toNat_pair {high low : Nat} (hhigh : isHighHalf high = true) (hlow : isLowHalf low = true) :
    (Char.ofNat (0x10000 + (high - 0xd800) * 0x400 + (low - 0xdc00))).toNat =
      0x10000 + (high - 0xd800) * 0x400 + (low - 0xdc00) := by
  simp only [isHighHalf, isLowHalf, Bool.and_eq_true, decide_eq_true_eq] at hhigh hlow
  apply toNat_ofNat
  unfold Nat.isValidChar
  omega

theorem textUnits_of_joinHalves (hunits : ∀ n ∈ units, n < 0x110000) (h : joinHalves units = some cs) :
    TextUnits cs units := by
  fun_induction joinHalves units generalizing cs with
  | case1 =>
    obtain rfl := Option.some.inj h
    exact .nil
  | case2 n hhalf => cases h
  | case3 n hhalf =>
    obtain rfl := Option.some.inj h
    exact .ofNat (hunits n List.mem_cons_self) ((Bool.not_eq_true _).mp hhalf) .nil
  | case4 m n units hhigh hlow ih =>
    obtain ⟨cs, hcs, rfl⟩ := Option.map_eq_some_iff.mp h
    obtain ⟨-, -, hunits⟩ := by simpa only [List.forall_mem_cons] using hunits
    exact .pair hhigh hlow (toNat_pair hhigh hlow) (ih hunits hcs)
  | case5 m n units hhigh hlow => cases h
  | case6 m n units hhigh hlow => cases h
  | case7 m n units hhigh hlow ih =>
    obtain ⟨cs, hcs, rfl⟩ := Option.map_eq_some_iff.mp h
    obtain ⟨hm, hunits⟩ := List.forall_mem_cons.mp hunits
    exact .ofNat hm (by simp [hhigh, hlow]) (ih hunits hcs)

theorem joinHalves_eq_none (spelled : UnitsSpelled units body) (h : ∀ cs, ¬ TextUnits cs units) :
    joinHalves units = none := by
  apply Option.eq_none_iff_forall_ne_some.mpr
  intro cs hcs
  exact h cs (textUnits_of_joinHalves spelled.lt hcs)

theorem readString_append (h : Quoted s ('"' :: cs)) : readString (cs ++ rest) = some (s, rest) := by
  cases h with
  | text spelled hunits =>
    rw [List.append_assoc, readString, List.singleton_append, readUnits_spelled spelled]
    simp [joinHalves_textUnits hunits]
  | noText spelled hunits =>
    rw [List.append_assoc, readString, List.singleton_append, readUnits_spelled spelled]
    simp [joinHalves_eq_none spelled hunits]

theorem quoted_of_readString (h : readString cs = some (s, rest)) :
    ∃ body, cs = body ++ rest ∧ Quoted s ('"' :: body) := by
  obtain ⟨⟨units, _⟩, hread, h⟩ := Option.map_eq_some_iff.mp h
  obtain ⟨rfl, rfl⟩ := Prod.mk.inj h
  obtain ⟨body, rfl, spelled⟩ := spelled_of_readUnits hread
  refine ⟨body ++ ['"'], by simp, ?_⟩
  cases hjoin : joinHalves units with
  | none =>
    refine .noText spelled fun cs hcs => ?_
    rw [joinHalves_textUnits hcs] at hjoin
    cases hjoin
  | some cs =>
    refine .text spelled ?_
    rw [String.toList_ofList]
    exact textUnits_of_joinHalves spelled.lt hjoin

end NativeBuild.JsonValue
