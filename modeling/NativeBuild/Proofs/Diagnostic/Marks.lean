import NativeBuild.Diagnostic.Line
import NativeBuild.Proofs.Text.Runs

namespace NativeBuild.Diagnostic

open Text (IsRun Stops afterChar afterWord takeRun isBlank isDigit trimStart)

def IsGap (cs : List Char) : Prop := ∀ c ∈ cs, isBlank c = true

inductive SpanEnd : List Char → Prop
  | absent : SpanEnd []
  | present {line column : List Char} (hline : IsRun isDigit line) (hcolumn : IsRun isDigit column) :
      SpanEnd (',' :: (line ++ ',' :: column))

inductive PlaceMark (line column : List Char) : List Char → Prop
  | mk {ending gap : List Char} (hline : IsRun isDigit line) (hcolumn : IsRun isDigit column)
      (hending : SpanEnd ending) (hgap : IsGap gap) :
      PlaceMark line column ('(' :: (line ++ ',' :: (column ++ (ending ++ ')' :: (gap ++ [':'])))))

def IsCode (code : List Char) : Prop :=
  ∃ letters digits, IsRun isLetter letters ∧ IsRun isDigit digits ∧ code = letters ++ digits

inductive ReportMark (severity : Severity) (code : List Char) : List Char → Prop
  | mk {gap gap' : List Char} (hgap : IsRun isBlank gap) (hcode : IsCode code) (hgap' : IsGap gap') :
      ReportMark severity code (severity.name.toList ++ (gap ++ (code ++ (gap' ++ [':']))))

variable {cs rest tail mark line column code message : List Char} {severity : Severity} {c : Char}

theorem isLetter_iff : isLetter c = true ↔ 97 ≤ c.toNat ∧ c.toNat ≤ 122 ∨ 65 ≤ c.toNat ∧ c.toNat ≤ 90 := by
  simp only [isLetter, Bool.or_eq_true, Bool.and_eq_true, decide_eq_true_eq, Char.le_def, UInt32.le_iff_toNat_le]
  rfl

theorem not_isBlank_of_isLetter (h : isLetter c = true) : isBlank c = false := by
  rw [isLetter_iff] at h
  simp only [isBlank, Bool.or_eq_false_iff, Bool.and_eq_false_imp, decide_eq_true_eq, decide_eq_false_iff_not,
    beq_eq_false_iff_ne]
  omega

theorem not_isLetter_of_isDigit (h : isDigit c = true) : isLetter c = false := by
  rw [← Bool.not_eq_true]
  intro hletter
  rw [isLetter_iff] at hletter
  have hsmall : c.toNat < 128 := by omega
  rw [isDigit, if_pos hsmall, Char.isDigit] at h
  simp only [Bool.and_eq_true, decide_eq_true_eq, ge_iff_le, UInt32.le_iff_toNat_le] at h
  have hval : c.val.toNat = c.toNat := rfl
  have hzero : '0'.val.toNat = 48 := rfl
  have hnine : '9'.val.toNat = 57 := rfl
  omega

theorem severity_stops (severity : Severity) : Stops isBlank (severity.name.toList ++ rest) := by
  cases severity <;> simp [Severity.name, isBlank]

theorem afterColon_eq_some_iff :
    afterColon cs = some rest ↔ ∃ gap tail, IsGap gap ∧ cs = gap ++ ':' :: tail ∧ rest = trimStart tail := by
  rw [afterColon, Option.map_eq_some_iff]
  constructor
  · rintro ⟨tail, hcolon, rfl⟩
    obtain ⟨gap, hgap, hcs⟩ := Text.exists_trimStart cs
    exact ⟨gap, tail, hgap, by rw [hcs, Text.afterChar_eq_some_iff.mp hcolon], rfl⟩
  · rintro ⟨gap, tail, hgap, rfl, rfl⟩
    refine ⟨tail, ?_, rfl⟩
    rw [Text.trimStart_append hgap (by simp [isBlank]), Text.afterChar_eq_some_iff]

theorem readSeverity_eq_some_iff : readSeverity cs = some (severity, rest) ↔ cs = severity.name.toList ++ rest := by
  constructor
  · intro h
    obtain ⟨s, -, hs⟩ := List.exists_of_findSome?_eq_some h
    obtain ⟨rest', hword, heq⟩ := Option.map_eq_some_iff.mp hs
    obtain ⟨rfl, rfl⟩ := Prod.mk.inj heq
    exact Text.afterWord_eq_some_iff.mp hword
  · rintro rfl
    cases severity <;> simp [readSeverity, Severity.all, Severity.name, afterWord]

theorem readCode_eq_some (h : readCode cs = some (code, rest)) : IsCode code ∧ cs = code ++ rest := by
  simp only [readCode, Option.bind_eq_bind, Option.bind_eq_some_iff, Option.pure_def, Option.some.injEq,
    Prod.mk.injEq, Prod.exists] at h
  obtain ⟨letters, middle, htakeLetters, digits, rest, htakeDigits, rfl, rfl⟩ := h
  obtain ⟨rfl, hletters⟩ := Text.isRun_of_takeRun htakeLetters
  obtain ⟨rfl, hdigits⟩ := Text.isRun_of_takeRun htakeDigits
  exact ⟨⟨letters, digits, hletters, hdigits, rfl⟩, (List.append_assoc _ _ _).symm⟩

theorem readCode_append (hcode : IsCode code) (hrest : Stops isDigit rest) :
    readCode (code ++ rest) = some (code, rest) := by
  obtain ⟨letters, digits, hletters, hdigits, rfl⟩ := hcode
  have hstops : Stops isLetter (digits ++ rest) := hdigits.stops (fun _ => not_isLetter_of_isDigit)
  simp [readCode, List.append_assoc, Text.takeRun_append hletters hstops, Text.takeRun_append hdigits hrest]

theorem IsCode.not_mem (hcode : IsCode code) (hletter : isLetter c = false) (hdigit : isDigit c = false) :
    c ∉ code := by
  obtain ⟨letters, digits, hletters, hdigits, rfl⟩ := hcode
  rw [List.mem_append, not_or]
  exact ⟨hletters.not_mem hletter, hdigits.not_mem hdigit⟩

theorem IsCode.stops (hcode : IsCode code) : Stops isBlank (code ++ rest) := by
  obtain ⟨letters, digits, hletters, -, rfl⟩ := hcode
  rw [List.append_assoc]
  exact hletters.stops (fun _ => not_isBlank_of_isLetter)

theorem IsGap.not_mem {gap : List Char} (hgap : IsGap gap) : '(' ∉ gap := by
  intro hmem
  cases hgap '(' hmem

theorem IsGap.stops_isDigit {gap : List Char} (hgap : IsGap gap) : Stops isDigit (gap ++ ':' :: tail) := by
  refine Text.stops_append (Text.stops_of_all (fun c hc => Text.not_isDigit_of_isBlank (hgap c hc))) ?_
  simp [isDigit]

theorem readReport_eq_some_iff :
    readReport cs = some (severity, code, message) ↔
      ∃ mark tail, ReportMark severity code mark ∧ cs = mark ++ tail ∧ message = trimStart tail ∧ '\n' ∉ message := by
  constructor
  · intro h
    simp only [readReport, Option.bind_eq_bind, Option.bind_eq_some_iff, Prod.exists, Option.ite_none_left_eq_some,
      Option.pure_def, Option.some.injEq, Prod.mk.injEq] at h
    obtain ⟨severity, afterSeverity, hseverity, gap, afterGap, htakeGap, code, afterCode, hreadCode, message, hcolon,
      hline, rfl, rfl, rfl⟩ := h
    obtain rfl := readSeverity_eq_some_iff.mp hseverity
    obtain ⟨rfl, hgap⟩ := Text.isRun_of_takeRun htakeGap
    obtain ⟨hcode, rfl⟩ := readCode_eq_some hreadCode
    obtain ⟨gap', tail, hgap', rfl, hmessage⟩ := afterColon_eq_some_iff.mp hcolon
    exact ⟨_, tail, .mk hgap hcode hgap', by simp [List.append_assoc], hmessage, hline⟩
  · rintro ⟨mark, tail, @⟨gap, gap', hgap, hcode, hgap'⟩, rfl, rfl, hline⟩
    have hseverity : readSeverity (severity.name.toList ++ (gap ++ (code ++ (gap' ++ ':' :: tail)))) =
        some (severity, gap ++ (code ++ (gap' ++ ':' :: tail))) := readSeverity_eq_some_iff.mpr rfl
    have hcolon : afterColon (gap' ++ ':' :: tail) = some (trimStart tail) :=
      afterColon_eq_some_iff.mpr ⟨gap', tail, hgap', rfl, rfl⟩
    simp [readReport, List.append_assoc, hseverity, Text.takeRun_append hgap hcode.stops,
      readCode_append hcode hgap'.stops_isDigit, hcolon, hline]

theorem skipEnd_eq_some (h : skipEnd cs = some rest) : ∃ ending, SpanEnd ending ∧ cs = ending ++ rest := by
  rw [skipEnd] at h
  split at h
  · obtain rfl := Option.some.inj h
    exact ⟨[], .absent, rfl⟩
  · next after hcomma =>
    simp only [Option.bind_eq_bind, Option.bind_eq_some_iff, Option.pure_def, Option.some.injEq, Prod.exists] at h
    obtain ⟨line, afterLine, htakeLine, afterComma, hcomma', column, afterColumn, htakeColumn, rfl⟩ := h
    obtain rfl := Text.afterChar_eq_some_iff.mp hcomma
    obtain ⟨rfl, hline⟩ := Text.isRun_of_takeRun htakeLine
    obtain rfl := Text.afterChar_eq_some_iff.mp hcomma'
    obtain ⟨rfl, hcolumn⟩ := Text.isRun_of_takeRun htakeColumn
    exact ⟨_, .present hline hcolumn, by simp [List.append_assoc]⟩

theorem skipEnd_append {ending : List Char} (hending : SpanEnd ending) :
    skipEnd (ending ++ ')' :: rest) = some (')' :: rest) := by
  cases hending with
  | absent => simp [skipEnd, afterChar]
  | @present line column hline hcolumn =>
    have hcomma : Stops isDigit (',' :: (column ++ ')' :: rest)) := by simp [isDigit]
    have hparen : Stops isDigit (')' :: rest) := by simp [isDigit]
    simp [skipEnd, afterChar, List.append_assoc, Text.takeRun_append hline hcomma, Text.takeRun_append hcolumn hparen]

theorem SpanEnd.stops {ending : List Char} (hending : SpanEnd ending) : Stops isDigit (ending ++ ')' :: rest) := by
  cases hending <;> simp [isDigit]

theorem readPlace_eq_some_iff :
    readPlace cs = some (line, column, rest) ↔
      ∃ mark tail, PlaceMark line column mark ∧ cs = mark ++ tail ∧ rest = trimStart tail := by
  constructor
  · intro h
    simp only [readPlace, Option.bind_eq_bind, Option.bind_eq_some_iff, Option.pure_def, Option.some.injEq,
      Prod.mk.injEq, Prod.exists] at h
    obtain ⟨inside, hopen, line, afterLine, htakeLine, afterComma, hcomma, column, afterColumn, htakeColumn, afterEnd,
      hskip, afterParen, hparen, rest, hcolon, rfl, rfl, rfl⟩ := h
    obtain rfl := Text.afterChar_eq_some_iff.mp hopen
    obtain ⟨rfl, hline⟩ := Text.isRun_of_takeRun htakeLine
    obtain rfl := Text.afterChar_eq_some_iff.mp hcomma
    obtain ⟨rfl, hcolumn⟩ := Text.isRun_of_takeRun htakeColumn
    obtain ⟨ending, hending, rfl⟩ := skipEnd_eq_some hskip
    obtain rfl := Text.afterChar_eq_some_iff.mp hparen
    obtain ⟨gap, tail, hgap, rfl, hrest⟩ := afterColon_eq_some_iff.mp hcolon
    exact ⟨_, tail, .mk hline hcolumn hending hgap, by simp [List.append_assoc], hrest⟩
  · rintro ⟨mark, tail, @⟨ending, gap, hline, hcolumn, hending, hgap⟩, rfl, rfl⟩
    have hcomma : Stops isDigit (',' :: (column ++ (ending ++ ')' :: (gap ++ ':' :: tail)))) := by simp [isDigit]
    have hcolon : afterColon (gap ++ ':' :: tail) = some (trimStart tail) :=
      afterColon_eq_some_iff.mpr ⟨gap, tail, hgap, rfl, rfl⟩
    simp [readPlace, afterChar, List.append_assoc, Text.takeRun_append hline hcomma,
      Text.takeRun_append hcolumn hending.stops, skipEnd_append hending, hcolon]

end NativeBuild.Diagnostic
