import NativeBuild.Proofs.Diagnostic.Headings

namespace NativeBuild.Diagnostic

open Text (IsRun Stops isBlank isDigit trimStart trimEnd)

/-- What a line can tell: nowhere before its place, and nowhere in its message if it has none, is a heading. -/
structure Legible (d : Diagnostic) : Prop where
  alone : d.suggestions = []
  coded : ∃ code, IsCode code ∧ d.code = some (String.ofList code)
  oneLine : '\n' ∉ d.message.toList
  start : Stops isBlank d.message.toList
  finish : Stops isBlank d.message.toList.reverse
  placed : ∀ l ∈ d.location, l.path.chars ≠ [] ∧ '\n' ∉ l.path.chars ∧
    ∀ u w, l.path.chars = u ++ w → u ≠ [] → ¬ Headed w
  unplaced : d.location = none → ∀ u w, d.message.toList = u ++ w → ¬ Headed w

variable {tail mark heading line column code message path : List Char} {severity : Severity}
  {report : Severity × List Char × List Char} {p : PlacedReport} {d : Diagnostic} {location : Option SourceLocation}

theorem ReportMark.isCode (h : ReportMark severity code mark) : IsCode code := by
  cases h with
  | mk _ hcode _ => exact hcode

theorem ReportMark.ne_nil (h : ReportMark severity code mark) : mark ≠ [] := by
  cases h with
  | mk => simp

theorem legible_ofReport (hcode : IsCode code) (hline : '\n' ∉ message) (hstart : Stops isBlank message)
    (hfinish : Stops isBlank message.reverse)
    (hplaced : ∀ l ∈ location, l.path.chars ≠ [] ∧ '\n' ∉ l.path.chars ∧
      ∀ u w, l.path.chars = u ++ w → u ≠ [] → ¬ Headed w)
    (hunplaced : location = none → ∀ u w, message = u ++ w → ¬ Headed w) :
    Legible (ofReport location (severity, code, message)) where
  alone := rfl
  coded := ⟨code, hcode, rfl⟩
  oneLine := by simpa [ofReport] using hline
  start := by simpa [ofReport] using hstart
  finish := by simpa [ofReport] using hfinish
  placed := hplaced
  unplaced := by simpa [ofReport] using hunplaced

theorem legible_of_ofLine {text : String} (hline : '\n' ∉ text.toList) (h : ofLine text = some d) : Legible d := by
  have hbreak : '\n' ∉ trimEnd text.toList := fun hmem => hline (Text.mem_of_mem_trimEnd hmem)
  have hend : Stops isBlank (trimEnd text.toList).reverse := Text.stops_reverse_trimEnd
  simp only [ofLine] at h
  generalize trimEnd text.toList = cs at h hbreak hend
  cases hplaced : readPlaced [] cs with
  | some p =>
    obtain ⟨path, line, column, severity, code, message⟩ := p
    obtain ⟨front, rest, rfl, hpath, hne, hread, hfirst⟩ := exists_of_readPlaced hbreak hplaced
    obtain rfl : path = front := hpath
    obtain ⟨heading, tail, @⟨place, gap, report, -, -, hreport⟩, rfl, rfl, hmessage⟩ := readHeading_eq_some_iff.mp hread
    simp only [hplaced, Option.bind_eq_bind, Option.bind_eq_some_iff, Option.pure_def, Option.some.injEq] at h
    obtain ⟨lineNumber, -, columnNumber, -, rfl⟩ := h
    refine legible_ofReport hreport.isCode hmessage Text.stops_trimStart ?_ ?_ (by simp)
    · exact Text.stops_reverse_trimStart (Text.stops_reverse_of_append (Text.stops_reverse_of_append hend))
    · intro l hl
      obtain rfl := Option.some.inj hl
      rw [Path.chars_ofChars]
      refine ⟨hne, fun hmem => hbreak (List.mem_append_left _ hmem), ?_⟩
      rintro u w huw hu hheaded
      have hw : w ≠ [] := by
        rintro rfl
        exact not_headed_nil hheaded
      exact hfirst u w huw hu hw hheaded.append
  | none =>
    rw [hplaced] at h
    obtain ⟨⟨severity, code, message⟩, hread, rfl⟩ := Option.map_eq_some_iff.mp h
    obtain ⟨mark, tail, hmark, rfl, rfl, hmessage⟩ := readReport_eq_some_iff.mp hread
    refine legible_ofReport hmark.isCode hmessage Text.stops_trimStart ?_ (by simp) ?_
    · exact Text.stops_reverse_trimStart (Text.stops_reverse_of_append hend)
    · intro _ u w huw
      obtain ⟨gap, -, htail⟩ := Text.exists_trimStart tail
      apply not_headed_of_readPlaced hbreak hplaced (mark ++ gap ++ u) w
      · rw [htail, huw]
        simp [List.append_assoc]
      · simp [hmark.ne_nil]

def written (d : Diagnostic) : String :=
  (d.location.map (fun l => l.display ++ ": ")).getD "" ++ d.severity.name ++ (d.code.map (" " ++ ·)).getD "" ++ ": " ++
    d.message

theorem format_eq_written (h : d.suggestions = []) : d.format false = d.written ++ "\n" := by
  simp [format, written, h, String.join]

def writtenMark (severity : Severity) (code : List Char) : List Char :=
  severity.name.toList ++ ([' '] ++ (code ++ ([] ++ [':'])))

theorem isGap_space : IsGap [' '] := by
  simp [IsGap, isBlank]

theorem reportMark_written (hcode : IsCode code) (severity : Severity) :
    ReportMark severity code (writtenMark severity code) :=
  .mk ⟨List.cons_ne_nil _ _, isGap_space⟩ hcode (List.forall_mem_nil _)

def writtenHeading (line column : List Char) (severity : Severity) (code : List Char) : List Char :=
  '(' :: (line ++ ',' :: (column ++ ([] ++ ')' :: ([] ++ [':'])))) ++ ([' '] ++ writtenMark severity code)

theorem heading_written (hline : IsRun isDigit line) (hcolumn : IsRun isDigit column) (hcode : IsCode code)
    (severity : Severity) : Heading line column severity code (writtenHeading line column severity code) :=
  .mk (.mk hline hcolumn .absent (List.forall_mem_nil _)) isGap_space (reportMark_written hcode severity)

theorem trimEnd_mark (front tail : List Char) :
    trimEnd (front ++ (writtenMark severity code ++ tail)) = front ++ (writtenMark severity code ++ trimEnd tail) := by
  have hsplit (after : List Char) : front ++ (writtenMark severity code ++ after) =
      (front ++ (severity.name.toList ++ ' ' :: code)) ++ ':' :: after := by
    simp [writtenMark, List.append_assoc]
  rw [hsplit, hsplit, Text.trimEnd_append (by decide)]

theorem trimEnd_heading (front tail : List Char) :
    trimEnd (front ++ (writtenHeading line column severity code ++ tail)) =
      front ++ (writtenHeading line column severity code ++ trimEnd tail) := by
  simpa [writtenHeading, List.append_assoc] using
    trimEnd_mark (front ++ '(' :: (line ++ ',' :: (column ++ [')', ':', ' ']))) tail

theorem trimStart_trimEnd (hstart : Stops isBlank message) (hfinish : Stops isBlank message.reverse) :
    trimStart (trimEnd (' ' :: message)) = message := by
  cases message with
  | nil => decide
  | cons c message =>
    have hkept : trimEnd ([' '] ++ c :: message) = [' '] ++ c :: message := by
      apply Text.trimEnd_of_stops
      exact (Text.stops_reverse_append_iff (List.cons_ne_nil c message)).mpr hfinish
    show trimStart (trimEnd ([' '] ++ c :: message)) = c :: message
    rw [hkept, Text.trimStart_append isGap_space hstart]

theorem toList_written_placed {l : SourceLocation} (hcode : d.code = some (String.ofList code))
    (hplace : d.location = some l) :
    d.written.toList = l.path.chars ++
      (writtenHeading (Text.decimal l.line.toNat) (Text.decimal l.column.toNat) d.severity code ++
        ' ' :: d.message.toList) := by
  simp [written, hcode, hplace, SourceLocation.display, writtenHeading, writtenMark, Path.chars]

theorem toList_written_unplaced (hcode : d.code = some (String.ofList code)) (hplace : d.location = none) :
    d.written.toList = [] ++ (writtenMark d.severity code ++ ' ' :: d.message.toList) := by
  simp [written, hcode, hplace, writtenMark]

theorem break_not_mem_mark (hcode : IsCode code) : '\n' ∉ writtenMark severity code := by
  have hname : '\n' ∉ severity.name.toList := by cases severity <;> decide
  simp [writtenMark, hname, hcode.not_mem (c := '\n') (by decide) (by decide)]

theorem break_not_mem_written (h : Legible d) : '\n' ∉ d.written.toList := by
  obtain ⟨code, hcode, hsome⟩ := h.coded
  cases hplace : d.location with
  | some l =>
    have hnumber (n : Nat) : '\n' ∉ Text.decimal n := (Text.isRun_decimal n).not_mem (by decide)
    rw [toList_written_placed hsome hplace, writtenHeading]
    simp [(h.placed l hplace).2.1, hnumber, break_not_mem_mark hcode, h.oneLine]
  | none =>
    rw [toList_written_unplaced hsome hplace]
    simp [break_not_mem_mark hcode, h.oneLine]

theorem readPlaced_written (hpath : path ≠ []) (hline : '\n' ∉ path)
    (hclear : ∀ u w, path = u ++ w → u ≠ [] → ¬ Headed w) (hheading : Heading line column severity code heading)
    (hmessage : '\n' ∉ trimStart tail) :
    readPlaced [] (path ++ (heading ++ tail)) = some ⟨path, line, column, severity, code, trimStart tail⟩ := by
  obtain ⟨inside, rfl, -⟩ := hheading.eq_cons
  have hpass : readPlaced [] (path ++ ('(' :: inside ++ tail)) = readPlaced ([] ++ path) ('(' :: inside ++ tail) := by
    apply readPlaced_append hline
    intro u w huw hu hw hheaded
    exact hclear u w huw hu (hheaded.of_append hw)
  rw [hpass]
  exact readPlaced_of_heading hpath (readHeading_eq_some_iff.mpr ⟨_, tail, hheading, rfl, rfl, hmessage⟩)

theorem readPlaced_unplaced (hmark : '(' ∉ mark) (hclear : ∀ u w, trimStart tail = u ++ w → ¬ Headed w) :
    readPlaced [] (mark ++ tail) = none := by
  apply readPlaced_eq_none
  intro u w huw _ hheaded
  obtain ⟨gap, hgap, htail⟩ := Text.exists_trimStart tail
  have hfront : '(' ∉ mark ++ gap := by
    rw [List.mem_append]
    exact not_or.mpr ⟨hmark, IsGap.not_mem hgap⟩
  rw [htail, ← List.append_assoc] at huw
  obtain ⟨v, hv⟩ := hheaded.of_append_eq hfront huw
  exact hclear v w hv hheaded

theorem ofLine_of_placed {text : String} {lineNumber columnNumber : UInt32}
    (h : readPlaced [] (trimEnd text.toList) = some p) (hline : Text.readWord p.line = some lineNumber)
    (hcolumn : Text.readWord p.column = some columnNumber) :
    ofLine text = some (ofReport (some ⟨Path.ofChars p.path, lineNumber, columnNumber⟩) p.report) := by
  simp [ofLine, h, hline, hcolumn]

theorem ofLine_of_unplaced {text : String} (h : readPlaced [] (trimEnd text.toList) = none)
    (hreport : readReport (trimEnd text.toList) = some report) : ofLine text = some (ofReport none report) := by
  simp [ofLine, h, hreport]

theorem ofReport_eq (halone : d.suggestions = []) (hcode : d.code = some (String.ofList code)) :
    ofReport d.location (d.severity, code, d.message.toList) = d := by
  obtain ⟨message, severity, _, location, _⟩ := d
  obtain rfl := halone
  obtain rfl := hcode
  simp [ofReport]

theorem ofLine_written (h : Legible d) : ofLine d.written = some d := by
  obtain ⟨code, hcode, hsome⟩ := h.coded
  have hmessage : trimStart (trimEnd (' ' :: d.message.toList)) = d.message.toList := trimStart_trimEnd h.start h.finish
  have hbreak : '\n' ∉ trimStart (trimEnd (' ' :: d.message.toList)) := by
    rw [hmessage]
    exact h.oneLine
  have hsame := ofReport_eq h.alone hsome
  cases hplace : d.location with
  | some l =>
    obtain ⟨hne, hpath, hclear⟩ := h.placed l hplace
    have hheading := heading_written (Text.isRun_decimal l.line.toNat) (Text.isRun_decimal l.column.toNat) hcode
    have hread := readPlaced_written hne hpath hclear (hheading d.severity) hbreak
    rw [← trimEnd_heading, ← toList_written_placed hsome hplace, hmessage] at hread
    rw [ofLine_of_placed hread (Text.readWord_decimal l.line) (Text.readWord_decimal l.column)]
    rw [hplace] at hsame
    simpa [Path.ofChars, Path.chars] using hsame
  | none =>
    have hmark := reportMark_written hcode d.severity
    have hclear : ∀ u w, trimStart (trimEnd (' ' :: d.message.toList)) = u ++ w → ¬ Headed w := by
      rw [hmessage]
      exact h.unplaced hplace
    have hunplaced := readPlaced_unplaced hmark.not_mem hclear
    have hread := readReport_eq_some_iff.mpr ⟨_, _, hmark, rfl, rfl, hbreak⟩
    rw [← List.nil_append (_ ++ _), ← trimEnd_mark, ← toList_written_unplaced hsome hplace] at hunplaced hread
    rw [ofLine_of_unplaced hunplaced hread, hmessage, ← hplace, hsame]

end NativeBuild.Diagnostic
