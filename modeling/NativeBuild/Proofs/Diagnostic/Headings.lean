import NativeBuild.Proofs.Diagnostic.Marks

namespace NativeBuild.Diagnostic

open Text (IsRun Stops isBlank isDigit trimStart trimEnd)

inductive Heading (line column : List Char) (severity : Severity) (code : List Char) : List Char → Prop
  | mk {place gap report : List Char} (hplace : PlaceMark line column place) (hgap : IsGap gap)
      (hreport : ReportMark severity code report) : Heading line column severity code (place ++ (gap ++ report))

def Headed (cs : List Char) : Prop :=
  ∃ line column severity code heading, Heading line column severity code heading ∧ heading <+: cs

def readHeading (cs : List Char) : Option (List Char × List Char × Severity × List Char × List Char) :=
  (readPlace cs).bind (fun (line, column, rest) => (readReport rest).map (fun report => (line, column, report)))

variable {cs front rest tail mark heading line column code message path : List Char} {severity : Severity} {c : Char}
  {report : Severity × List Char × List Char} {p : PlacedReport}

theorem ReportMark.stops (h : ReportMark severity code mark) : Stops isBlank (mark ++ tail) := by
  cases h with
  | mk =>
    rw [List.append_assoc]
    exact severity_stops severity

theorem readHeading_eq_some_iff :
    readHeading cs = some (line, column, severity, code, message) ↔
      ∃ heading tail, Heading line column severity code heading ∧ cs = heading ++ tail ∧ message = trimStart tail ∧
        '\n' ∉ message := by
  simp only [readHeading, Option.bind_eq_some_iff, Option.map_eq_some_iff, Prod.exists, Prod.mk.injEq]
  constructor
  · rintro ⟨_, _, rest, hread, _, _, _, hreport, rfl, rfl, rfl, rfl, rfl⟩
    obtain ⟨place, after, hplace, rfl, rfl⟩ := readPlace_eq_some_iff.mp hread
    obtain ⟨report, tail, hreport, hafter, hmessage, hline⟩ := readReport_eq_some_iff.mp hreport
    obtain ⟨gap, hgap, hsplit⟩ := Text.exists_trimStart after
    refine ⟨_, tail, .mk hplace hgap hreport, ?_, hmessage, hline⟩
    rw [hsplit, hafter]
    simp [List.append_assoc]
  · rintro ⟨heading, tail, @⟨place, gap, report, hplace, hgap, hreport⟩, rfl, rfl, hline⟩
    have hafter : trimStart (gap ++ (report ++ tail)) = report ++ tail := Text.trimStart_append hgap hreport.stops
    refine ⟨line, column, report ++ tail, ?_, severity, code, trimStart tail, ?_, rfl, rfl, rfl, rfl, rfl⟩
    · exact readPlace_eq_some_iff.mpr ⟨place, gap ++ (report ++ tail), hplace, by simp [List.append_assoc], hafter.symm⟩
    · exact readReport_eq_some_iff.mpr ⟨report, tail, hreport, rfl, rfl, hline⟩

theorem readHeading_eq_none (h : ¬ Headed cs) : readHeading cs = none := by
  rw [Option.eq_none_iff_forall_ne_some]
  rintro ⟨line, column, severity, code, message⟩ hread
  obtain ⟨heading, tail, hheading, rfl, -, -⟩ := readHeading_eq_some_iff.mp hread
  exact h ⟨line, column, severity, code, heading, hheading, List.prefix_append heading tail⟩

theorem not_headed_of_readHeading (hline : '\n' ∉ cs) (h : readHeading cs = none) : ¬ Headed cs := by
  rintro ⟨line, column, severity, code, heading, hheading, tail, rfl⟩
  have hmessage : '\n' ∉ trimStart tail :=
    fun hbreak => hline (List.mem_append_right heading (Text.mem_of_mem_trimStart hbreak))
  have hread : readHeading (heading ++ tail) = some (line, column, severity, code, trimStart tail) :=
    readHeading_eq_some_iff.mpr ⟨heading, tail, hheading, rfl, rfl, hmessage⟩
  rw [h] at hread
  cases hread

theorem ReportMark.not_mem (h : ReportMark severity code mark) : '(' ∉ mark := by
  obtain ⟨hgap, hcode, hgap'⟩ := h
  have hname : '(' ∉ severity.name.toList := by cases severity <;> decide
  have hblank : isBlank '(' = false := by decide
  simp [hname, hgap.not_mem hblank, hcode.not_mem (c := '(') (by decide) (by decide), hgap'.not_mem]

theorem Heading.eq_cons (h : Heading line column severity code heading) :
    ∃ inside, heading = '(' :: inside ∧ '(' ∉ inside := by
  obtain ⟨@⟨ending, gap', hline, hcolumn, hending, hgap'⟩, hgap, hreport⟩ := h
  have hdigit : isDigit '(' = false := by decide
  have hspan : '(' ∉ ending := by
    cases hending with
    | absent => exact List.not_mem_nil
    | present hline hcolumn => simp [hline.not_mem hdigit, hcolumn.not_mem hdigit]
  refine ⟨_, rfl, ?_⟩
  simp [hline.not_mem hdigit, hcolumn.not_mem hdigit, hspan, hgap'.not_mem, hgap.not_mem, hreport.not_mem]

theorem Headed.eq_cons (h : Headed cs) : ∃ rest, cs = '(' :: rest := by
  obtain ⟨line, column, severity, code, heading, hheading, tail, rfl⟩ := h
  obtain ⟨inside, rfl, -⟩ := hheading.eq_cons
  exact ⟨inside ++ tail, rfl⟩

theorem not_headed_nil : ¬ Headed [] := by
  intro h
  obtain ⟨rest, hrest⟩ := h.eq_cons
  cases hrest

theorem Headed.append (h : Headed front) : Headed (front ++ rest) := by
  obtain ⟨line, column, severity, code, heading, hheading, hprefix⟩ := h
  exact ⟨line, column, severity, code, heading, hheading, hprefix.trans (List.prefix_append front rest)⟩

theorem Headed.of_append (h : Headed (front ++ '(' :: rest)) (hfront : front ≠ []) : Headed front := by
  obtain ⟨line, column, severity, code, heading, hheading, hprefix⟩ := h
  refine ⟨line, column, severity, code, heading, hheading, ?_⟩
  obtain ⟨inside, rfl, hinside⟩ := hheading.eq_cons
  obtain ⟨c, front, rfl⟩ := List.exists_cons_of_ne_nil hfront
  obtain ⟨rfl, htail⟩ := List.cons_prefix_cons.mp hprefix
  refine List.cons_prefix_cons.mpr ⟨rfl, ?_⟩
  -- a heading that went on would have the parenthesis inside it
  obtain hshort | ⟨after, rfl⟩ := List.prefix_or_prefix_of_prefix htail (List.prefix_append front ('(' :: rest))
  · exact hshort
  · have hafter : after <+: '(' :: rest := (List.prefix_append_right_inj front).mp htail
    cases after with
    | nil => simp
    | cons c after =>
      obtain ⟨rfl, -⟩ := List.cons_prefix_cons.mp hafter
      simp at hinside

theorem Headed.of_append_eq {w u : List Char} (h : Headed w) (hfront : '(' ∉ front) (heq : front ++ rest = u ++ w) :
    ∃ v, rest = v ++ w := by
  obtain ⟨after, rfl⟩ := h.eq_cons
  obtain ⟨v, -, hrest⟩ | ⟨v, rfl, hrest⟩ := List.append_eq_append_iff.mp heq
  · exact ⟨v, hrest⟩
  · cases v with
    | nil => exact ⟨[], hrest.symm⟩
    | cons c v =>
      obtain ⟨rfl, -⟩ := List.cons.inj hrest
      simp at hfront

theorem readPlaced_of_heading (hpath : path ≠ []) (h : readHeading cs = some (line, column, report)) :
    readPlaced path cs = some ⟨path, line, column, report⟩ := by
  cases cs with
  | nil => cases h
  | cons c cs =>
    simp only [readHeading, Option.bind_eq_some_iff, Option.map_eq_some_iff, Prod.exists, Prod.mk.injEq] at h
    obtain ⟨line, column, rest, hplace, _, _, _, hreport, rfl, rfl, rfl⟩ := h
    simp [readPlaced, hpath, hplace, hreport]

theorem readPlaced_cons (h : path ≠ [] → readHeading (c :: cs) = none) :
    readPlaced path (c :: cs) = if c = '\n' then none else readPlaced (path ++ [c]) cs := by
  rw [readPlaced]
  by_cases hpath : path = []
  · simp [hpath]
  · have hnone := h hpath
    rw [readHeading] at hnone
    cases hplace : readPlace (c :: cs) with
    | none => simp [hpath]
    | some place =>
      rw [hplace] at hnone
      have hreport : readReport place.2.2 = none := by simpa using hnone
      simp [hpath, hreport]

theorem readPlaced_append (hline : '\n' ∉ front)
    (h : ∀ u w, front = u ++ w → path ++ u ≠ [] → w ≠ [] → ¬ Headed (w ++ rest)) :
    readPlaced path (front ++ rest) = readPlaced (path ++ front) rest := by
  induction front generalizing path with
  | nil => simp
  | cons c front ih =>
    rw [List.mem_cons, not_or] at hline
    have hhere : path ≠ [] → readHeading (c :: (front ++ rest)) = none := by
      intro hpath
      apply readHeading_eq_none
      exact h [] (c :: front) rfl (by simpa using hpath) (List.cons_ne_nil c front)
    have hlater : ∀ u w, front = u ++ w → path ++ [c] ++ u ≠ [] → w ≠ [] → ¬ Headed (w ++ rest) := by
      rintro u w rfl - hw
      exact h (c :: u) w rfl (by simp) hw
    rw [List.cons_append, readPlaced_cons hhere, if_neg (Ne.symm hline.1), ih hline.2 hlater]
    simp

theorem readPlaced_eq_none (h : ∀ u w, cs = u ++ w → path ++ u ≠ [] → ¬ Headed w) : readPlaced path cs = none := by
  induction cs generalizing path with
  | nil => rw [readPlaced]
  | cons c cs ih =>
    have hhere : path ≠ [] → readHeading (c :: cs) = none :=
      fun hpath => readHeading_eq_none (h [] (c :: cs) rfl (by simpa using hpath))
    rw [readPlaced_cons hhere]
    split
    · rfl
    · apply ih
      rintro u w rfl -
      exact h (c :: u) w rfl (by simp)

theorem exists_of_readPlaced (hline : '\n' ∉ cs) (h : readPlaced path cs = some p) :
    ∃ front rest, cs = front ++ rest ∧ p.path = path ++ front ∧ p.path ≠ [] ∧
      readHeading rest = some (p.line, p.column, p.report) ∧
      ∀ u w, front = u ++ w → path ++ u ≠ [] → w ≠ [] → ¬ Headed (w ++ rest) := by
  induction cs generalizing path with
  | nil => cases h
  | cons c cs ih =>
    by_cases hhere : path ≠ [] → readHeading (c :: cs) = none
    · rw [readPlaced_cons hhere, if_neg (List.ne_of_not_mem_cons hline).symm] at h
      obtain ⟨front, rest, rfl, hpath, hne, hread, hfirst⟩ := ih (List.not_mem_of_not_mem_cons hline) h
      refine ⟨c :: front, rest, rfl, by simpa using hpath, hne, hread, ?_⟩
      intro u w huw hu hw
      cases u with
      | nil =>
        obtain rfl : c :: front = w := huw
        exact not_headed_of_readHeading hline (hhere (by simpa using hu))
      | cons x u =>
        obtain ⟨rfl, rfl⟩ := List.cons.inj huw
        exact hfirst u w rfl (by simp) hw
    · obtain ⟨hpath, hne⟩ := Classical.not_imp.mp hhere
      obtain ⟨⟨line, column, report⟩, hread⟩ := Option.ne_none_iff_exists'.mp hne
      rw [readPlaced_of_heading hpath hread] at h
      obtain rfl := Option.some.inj h
      refine ⟨[], c :: cs, rfl, (List.append_nil path).symm, hpath, hread, ?_⟩
      intro u w huw _ hw
      exact absurd (List.append_eq_nil_iff.mp huw.symm).2 hw

theorem not_headed_of_readPlaced (hline : '\n' ∉ cs) (h : readPlaced path cs = none) :
    ∀ u w, cs = u ++ w → path ++ u ≠ [] → ¬ Headed w := by
  induction cs generalizing path with
  | nil =>
    rintro u w huw -
    obtain ⟨rfl, rfl⟩ := List.append_eq_nil_iff.mp huw.symm
    exact not_headed_nil
  | cons c cs ih =>
    have hhere : path ≠ [] → readHeading (c :: cs) = none := by
      intro hpath
      rw [Option.eq_none_iff_forall_ne_some]
      rintro ⟨line, column, report⟩ hread
      rw [readPlaced_of_heading hpath hread] at h
      cases h
    rw [readPlaced_cons hhere, if_neg (List.ne_of_not_mem_cons hline).symm] at h
    intro u w huw hu
    cases u with
    | nil =>
      obtain rfl : c :: cs = w := huw
      exact not_headed_of_readHeading hline (hhere (by simpa using hu))
    | cons x u =>
      obtain ⟨rfl, rfl⟩ := List.cons.inj huw
      exact ih (List.not_mem_of_not_mem_cons hline) h u w rfl (by simp)

end NativeBuild.Diagnostic
