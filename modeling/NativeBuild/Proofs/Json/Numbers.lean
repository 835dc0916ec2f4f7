import NativeBuild.Json.Reader
import NativeBuild.Proofs.Text.Runs

namespace NativeBuild.JsonValue

open Text

inductive Whole : List Char → Prop
  | zero : Whole ['0']
  | digits {ds : List Char} (run : IsRun Char.isDigit ds) (lead : ds.head? ≠ some '0') : Whole ds

inductive Fraction : List Char → Prop
  | none : Fraction []
  | digits {ds : List Char} (run : IsRun Char.isDigit ds) : Fraction ('.' :: ds)

inductive Exponent : List Char → Prop
  | none : Exponent []
  | digits {e : Char} {sign ds : List Char} (mark : e = 'e' ∨ e = 'E')
      (signed : sign = [] ∨ sign = ['+'] ∨ sign = ['-']) (run : IsRun Char.isDigit ds) : Exponent (e :: (sign ++ ds))

inductive Number : List Char → Prop
  | intro {sign whole fraction exponent : List Char} (signed : sign = [] ∨ sign = ['-']) (hwhole : Whole whole)
      (hfraction : Fraction fraction) (hexponent : Exponent exponent) : Number (sign ++ whole ++ fraction ++ exponent)

def goesOn (c : Char) : Bool := c.isDigit || c == '.' || c == 'e' || c == 'E'

variable {cs rest whole fraction exponent ds : List Char} {c : Char}

theorem Whole.isRun (h : Whole whole) : IsRun Char.isDigit whole := by
  cases h with
  | zero => decide
  | digits run _ => exact run

theorem Number.starts (h : Number cs) : ∃ c cs', cs = c :: cs' ∧ (c = '-' ∨ c.isDigit = true) := by
  obtain @⟨sign, whole, fraction, exponent, signed, hwhole, -, -⟩ := h
  obtain ⟨c, more, rfl⟩ := List.exists_cons_of_ne_nil hwhole.isRun.nonempty
  obtain rfl | rfl := signed
  · exact ⟨c, _, rfl, .inr (hwhole.isRun.all c List.mem_cons_self)⟩
  · exact ⟨'-', _, rfl, .inl rfl⟩

theorem readWhole_append (h : Whole whole) (hrest : Stops Char.isDigit rest) :
    readWhole (whole ++ rest) = some (whole, rest) := by
  cases h with
  | zero =>
    cases rest with
    | nil => rfl
    | cons c rest =>
      rw [stops_cons] at hrest
      simp [readWhole, hrest]
  | digits run lead =>
    obtain ⟨d, ds, rfl⟩ := List.exists_cons_of_ne_nil run.nonempty
    have hd : d ≠ '0' := fun h => lead (by rw [h]; rfl)
    rw [List.cons_append, readWhole]
    · exact takeRun_append run hrest
    · rintro _ h
      exact hd (List.cons.inj h).1

theorem whole_of_readWhole (h : readWhole cs = some (whole, rest)) : cs = whole ++ rest ∧ Whole whole := by
  rw [readWhole.eq_def] at h
  split at h
  · split at h
    · cases h
    · obtain ⟨rfl, rfl⟩ := Prod.mk.inj (Option.some.inj h)
      exact ⟨rfl, .zero⟩
  · next hzero =>
    obtain ⟨rfl, run⟩ := isRun_of_takeRun h
    refine ⟨rfl, .digits run fun hlead => ?_⟩
    obtain ⟨ds, rfl⟩ := List.head?_eq_some_iff.mp hlead
    exact hzero _ rfl

theorem stops_of_goesOn {p : Char → Bool} (hp : ∀ c, p c = true → goesOn c = true) (h : Stops goesOn rest) :
    Stops p rest := by
  intro c hc
  cases hpc : p c with
  | false => rfl
  | true => rw [← h c hc, hp c hpc]

theorem Stops.digits (h : Stops goesOn rest) : Stops Char.isDigit rest :=
  stops_of_goesOn (fun c hc => by simp [goesOn, hc]) h

theorem readFraction_append (h : Fraction fraction) (hdigits : Stops Char.isDigit rest)
    (hpoint : Stops (· == '.') rest) : readFraction (fraction ++ rest) = some (fraction, rest) := by
  cases h with
  | none =>
    rw [List.nil_append, readFraction]
    rintro more rfl
    simp at hpoint
  | digits run =>
    rw [List.cons_append, readFraction, takeRun_append run hdigits]
    rfl

theorem fraction_of_readFraction (h : readFraction cs = some (fraction, rest)) :
    cs = fraction ++ rest ∧ Fraction fraction := by
  rw [readFraction.eq_def] at h
  split at h
  · obtain ⟨⟨ds, more⟩, hrun, h⟩ := Option.map_eq_some_iff.mp h
    obtain ⟨rfl, rfl⟩ := Prod.mk.inj h
    obtain ⟨rfl, run⟩ := isRun_of_takeRun hrun
    exact ⟨rfl, .digits run⟩
  · obtain ⟨rfl, rfl⟩ := Prod.mk.inj (Option.some.inj h)
    exact ⟨rfl, .none⟩

theorem isSign_of_isDigit (h : c.isDigit = true) : isSign c = false := by
  rw [isSign, Bool.or_eq_false_iff, beq_eq_false_iff_ne, beq_eq_false_iff_ne]
  constructor <;> rintro rfl <;> exact absurd h (by decide)

theorem readExponent_append (h : Exponent exponent) (hrest : Stops goesOn rest) :
    readExponent (exponent ++ rest) = some (exponent, rest) := by
  cases h with
  | none =>
    cases rest with
    | nil => rfl
    | cons c rest =>
      rw [stops_cons] at hrest
      simp_all [goesOn, readExponent]
  | @digits e sign ds mark signed run =>
    have hmark : (e == 'e' || e == 'E') = true := by simpa using mark
    have hread : takeRun Char.isDigit (ds ++ rest) = some (ds, rest) := takeRun_append run (Stops.digits hrest)
    obtain ⟨d, ds, rfl⟩ := List.exists_cons_of_ne_nil run.nonempty
    have hd : isSign d = false := isSign_of_isDigit (run.all d List.mem_cons_self)
    rw [List.cons_append] at hread
    obtain rfl | rfl | rfl := signed
    · simp [readExponent, hmark, hd, hread]
    · simp [readExponent, hmark, isSign, hread]
    · simp [readExponent, hmark, isSign, hread]

theorem exponent_of_readDigits {e : Char} {sign more : List Char} (mark : e = 'e' ∨ e = 'E')
    (signed : sign = [] ∨ sign = ['+'] ∨ sign = ['-'])
    (h : (takeRun Char.isDigit more).map (fun (ds, rest) => (e :: sign ++ ds, rest)) = some (exponent, rest)) :
    e :: (sign ++ more) = exponent ++ rest ∧ Exponent exponent := by
  obtain ⟨⟨ds, tail⟩, hrun, h⟩ := Option.map_eq_some_iff.mp h
  obtain ⟨rfl, rfl⟩ := Prod.mk.inj h
  obtain ⟨rfl, run⟩ := isRun_of_takeRun hrun
  exact ⟨by simp, .digits mark signed run⟩

theorem exponent_of_readExponent (h : readExponent cs = some (exponent, rest)) :
    cs = exponent ++ rest ∧ Exponent exponent := by
  have hnone (h : some (([] : List Char), cs) = some (exponent, rest)) : cs = exponent ++ rest ∧ Exponent exponent := by
    obtain ⟨rfl, rfl⟩ := Prod.mk.inj (Option.some.inj h)
    exact ⟨rfl, .none⟩
  rw [readExponent.eq_def] at h
  cases cs with
  | nil => exact hnone h
  | cons e more =>
    dsimp only at h
    by_cases hmark : (e == 'e' || e == 'E') = true
    · have mark : e = 'e' ∨ e = 'E' := by simpa using hmark
      rw [if_pos hmark] at h
      cases more with
      | nil => exact exponent_of_readDigits mark (.inl rfl) h
      | cons s more =>
        by_cases hs : isSign s = true
        · simp only [if_pos hs] at h
          refine exponent_of_readDigits mark (.inr ?_) h
          simpa [isSign] using hs
        · simp only [if_neg hs] at h
          exact exponent_of_readDigits mark (.inl rfl) h
    · rw [if_neg hmark] at h
      exact hnone h

theorem readNumber_append (h : Number cs) (hrest : Stops goesOn rest) : readNumber (cs ++ rest) = some (cs, rest) := by
  obtain @⟨sign, whole, fraction, exponent, signed, hwhole, hfraction, hexponent⟩ := h
  have hexp : readExponent (exponent ++ rest) = some (exponent, rest) := readExponent_append hexponent hrest
  have htail : Stops Char.isDigit (exponent ++ rest) ∧ Stops (· == '.') (exponent ++ rest) := by
    cases hexponent with
    | none => exact ⟨Stops.digits hrest, stops_of_goesOn (fun c hc => by simp_all [goesOn]) hrest⟩
    | digits mark => obtain rfl | rfl := mark <;> exact ⟨by simp, by simp⟩
  have hfrac := readFraction_append hfraction htail.1 htail.2
  have hmore : Stops Char.isDigit (fraction ++ (exponent ++ rest)) := by
    cases hfraction with
    | none => exact htail.1
    | digits run => simp
  have hint := readWhole_append hwhole hmore
  have hsign : readSign (sign ++ (whole ++ (fraction ++ (exponent ++ rest)))) =
      (sign, whole ++ (fraction ++ (exponent ++ rest))) := by
    obtain rfl | rfl := signed
    · obtain ⟨d, ds, rfl⟩ := List.exists_cons_of_ne_nil hwhole.isRun.nonempty
      have hd : d.isDigit = true := hwhole.isRun.all d List.mem_cons_self
      rw [List.nil_append, List.cons_append, readSign]
      rintro more h
      rw [(List.cons.inj h).1] at hd
      exact absurd hd (by decide)
    · rfl
  simp [readNumber, hsign, hint, hfrac, hexp]

theorem number_of_readNumber {number : List Char} (h : readNumber cs = some (number, rest)) :
    cs = number ++ rest ∧ Number number := by
  have hsign : cs = (readSign cs).1 ++ (readSign cs).2 ∧ ((readSign cs).1 = [] ∨ (readSign cs).1 = ['-']) := by
    rw [readSign.eq_def]
    split <;> simp
  simp only [readNumber, Option.bind_eq_bind, Option.bind_eq_some_iff, Option.pure_def, Option.some.injEq,
    Prod.exists, Prod.mk.injEq] at h
  obtain ⟨whole, _, hwhole, fraction, _, hfraction, exponent, _, hexponent, rfl, rfl⟩ := h
  obtain ⟨hcs, hwhole'⟩ := whole_of_readWhole hwhole
  obtain ⟨rfl, hfraction'⟩ := fraction_of_readFraction hfraction
  obtain ⟨rfl, hexponent'⟩ := exponent_of_readExponent hexponent
  refine ⟨?_, .intro hsign.2 hwhole' hfraction' hexponent'⟩
  rw [List.append_assoc, List.append_assoc, List.append_assoc, ← hcs]
  exact hsign.1

end NativeBuild.JsonValue
