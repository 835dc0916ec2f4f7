import NativeBuild.Proofs.Diagnostic.Legible

namespace NativeBuild.Diagnostic

variable {d : Diagnostic} {ds : List Diagnostic} {line : String}

theorem ofOutput_eq (output : String) :
    ofOutput output = (Text.pieces '\n' output.toList).filterMap (fun cs => ofLine (String.ofList cs)) := by
  -- the piece after a break at the end is no line, but the empty line would tell nothing either
  have hempty : [[]].filterMap (fun cs => ofLine (String.ofList cs)) = [] := by decide
  rw [ofOutput, lines, List.filterMap_map, Text.terminatedPieces]
  split
  · next hlast =>
    have hne := Text.pieces_ne_nil '\n' output.toList
    have hsplit := List.dropLast_concat_getLast hne
    rw [List.getLast?_eq_some_getLast hne, Option.some.injEq] at hlast
    rw [hlast] at hsplit
    conv => rhs; rw [← hsplit]
    rw [List.filterMap_append, hempty, List.append_nil]
    rfl
  · rfl

theorem ofOutput_append_break (a b : String) : ofOutput (a ++ "\n" ++ b) = ofOutput a ++ ofOutput b := by
  have hchars : (a ++ "\n" ++ b).toList = a.toList ++ '\n' :: b.toList := by simp
  rw [ofOutput_eq, ofOutput_eq a, ofOutput_eq b, hchars, Text.pieces_append_cons, List.filterMap_append]

theorem ofOutput_empty : ofOutput "" = [] := by decide

theorem ofOutput_line (h : '\n' ∉ line.toList) : ofOutput line = (ofLine line).toList := by
  rw [ofOutput_eq, Text.pieces_of_not_mem h]
  cases hread : ofLine line <;> simp [hread]

theorem ofOutput_format_append (h : Legible d) (rest : String) :
    ofOutput (d.format false ++ rest) = d :: ofOutput rest := by
  rw [format_eq_written h.alone, ofOutput_append_break, ofOutput_line (break_not_mem_written h), ofLine_written h]
  rfl

theorem legible_of_mem_ofOutput {output : String} (h : d ∈ ofOutput output) : Legible d := by
  rw [ofOutput_eq, List.mem_filterMap] at h
  obtain ⟨cs, hcs, hread⟩ := h
  refine legible_of_ofLine ?_ hread
  rw [String.toList_ofList]
  exact Text.not_mem_of_mem_pieces hcs

theorem ofOutput_formats (h : ∀ d ∈ ds, Legible d) : ofOutput (String.join (ds.map (·.format false))) = ds := by
  induction ds with
  | nil => exact ofOutput_empty
  | cons d ds ih =>
    obtain ⟨hd, hds⟩ := List.forall_mem_cons.mp h
    rw [List.map_cons, String.join_cons, ofOutput_format_append hd, ih hds]

theorem ofOutput_reread (output : String) :
    ofOutput (String.join ((ofOutput output).map (·.format false))) = ofOutput output :=
  ofOutput_formats (fun _ => legible_of_mem_ofOutput)

structure Unambiguous (d : Diagnostic) : Prop where
  alone : d.suggestions = []
  coded : ∃ letters digits, Text.IsRun isLetter letters ∧ Text.IsRun Char.isDigit digits ∧
    d.code = some (String.ofList (letters ++ digits))
  oneLine : '\n' ∉ d.message.toList
  start : Text.Stops Text.isBlank d.message.toList
  finish : Text.Stops Text.isBlank d.message.toList.reverse
  placed : ∀ l ∈ d.location, l.path.chars ≠ [] ∧ '\n' ∉ l.path.chars ∧ '(' ∉ l.path.chars
  unplaced : d.location = none → '(' ∉ d.message.toList

theorem isDigit_of_ascii {c : Char} (h : c.isDigit = true) : Text.isDigit c = true := by
  have hsmall : c.toNat < 128 := by
    simp only [Char.isDigit, Bool.and_eq_true, decide_eq_true_eq, UInt32.le_iff_toNat_le] at h
    have hval : c.val.toNat = c.toNat := rfl
    have hnine : '9'.val.toNat = 57 := rfl
    omega
  rw [Text.isDigit, if_pos hsmall, h]

theorem not_headed_of_not_mem {cs u w : List Char} (hcs : '(' ∉ cs) (huw : cs = u ++ w) : ¬ Headed w := by
  intro h
  obtain ⟨rest, rfl⟩ := h.eq_cons
  simp [huw] at hcs

theorem Unambiguous.legible (h : Unambiguous d) : Legible d where
  alone := h.alone
  coded := by
    obtain ⟨letters, digits, hletters, hdigits, hcode⟩ := h.coded
    have hdigits' : Text.IsRun Text.isDigit digits :=
      ⟨hdigits.nonempty, fun c hc => isDigit_of_ascii (hdigits.all c hc)⟩
    exact ⟨_, ⟨letters, digits, hletters, hdigits', rfl⟩, hcode⟩
  oneLine := h.oneLine
  start := h.start
  finish := h.finish
  placed := by
    intro l hl
    obtain ⟨hne, hline, hparen⟩ := h.placed l hl
    exact ⟨hne, hline, fun u w huw _ => not_headed_of_not_mem hparen huw⟩
  unplaced := fun hplace u w => not_headed_of_not_mem (h.unplaced hplace)

inductive PrintedLine where
  | diagnostic (d : Diagnostic)
  | other (line : String)

namespace PrintedLine

def text : PrintedLine → String
  | diagnostic d => d.format false
  | other line => line ++ "\n"

def diagnostic? : PrintedLine → Option Diagnostic
  | diagnostic d => some d
  | other _ => none

end PrintedLine

theorem ofOutput_printed (printed : List PrintedLine) (hshown : ∀ d, .diagnostic d ∈ printed → Unambiguous d)
    (hother : ∀ line, .other line ∈ printed → '\n' ∉ line.toList ∧ ofLine line = none) :
    ofOutput (String.join (printed.map PrintedLine.text)) = printed.filterMap PrintedLine.diagnostic? := by
  induction printed with
  | nil => exact ofOutput_empty
  | cons first printed ih =>
    have hlater := ih (fun d hd => hshown d (List.mem_cons_of_mem first hd))
      (fun line hline => hother line (List.mem_cons_of_mem first hline))
    rw [List.map_cons, String.join_cons]
    cases first with
    | diagnostic d =>
      have hd := (hshown d List.mem_cons_self).legible
      rw [PrintedLine.text, ofOutput_format_append hd, hlater]
      rfl
    | other line =>
      obtain ⟨hbreak, hnone⟩ := hother line List.mem_cons_self
      rw [PrintedLine.text, ofOutput_append_break, ofOutput_line hbreak, hnone, hlater]
      rfl

def quoted : Diagnostic where
  message := "see b.cs(1,1): error CS2: x"
  severity := .warning
  code := some "CS0168"
  location := some ⟨⟨" a b.cs "⟩, 4294967295, 0⟩
  suggestions := []

def bare : Diagnostic where
  message := ""
  severity := .error
  code := some "CS5001"
  location := none
  suggestions := []

def noisyOutput : List PrintedLine :=
  [.other "compiling (2,1) files", .diagnostic quoted, .other "error CS: no number", .other "", .diagnostic bare]

theorem quoted_unambiguous : Unambiguous quoted where
  alone := rfl
  coded := ⟨['C', 'S'], ['0', '1', '6', '8'], by decide, by decide, rfl⟩
  oneLine := by decide
  start := by decide
  finish := by decide
  placed := by decide
  unplaced := nofun

theorem bare_unambiguous : Unambiguous bare where
  alone := rfl
  coded := ⟨['C', 'S'], ['5', '0', '0', '1'], by decide, by decide, rfl⟩
  oneLine := by decide
  start := by decide
  finish := by decide
  placed := nofun
  unplaced := by decide

theorem noisy_ofOutput_printed :
    (∀ d, .diagnostic d ∈ noisyOutput → Unambiguous d) ∧
    (∀ line, .other line ∈ noisyOutput → '\n' ∉ line.toList ∧ ofLine line = none) ∧
    ofOutput (String.join (noisyOutput.map PrintedLine.text)) = [quoted, bare] := by
  have hshown : ∀ d, .diagnostic d ∈ noisyOutput → Unambiguous d := by
    intro d hd
    obtain rfl | rfl : d = quoted ∨ d = bare := by simpa [noisyOutput] using hd
    · exact quoted_unambiguous
    · exact bare_unambiguous
  have hother : ∀ line, .other line ∈ noisyOutput → '\n' ∉ line.toList ∧ ofLine line = none := by
    intro line hline
    obtain rfl | rfl | rfl : line = "compiling (2,1) files" ∨ line = "error CS: no number" ∨ line = "" := by
      simpa [noisyOutput] using hline
    all_goals exact ⟨by decide, by decide⟩
  exact ⟨hshown, hother, ofOutput_printed noisyOutput hshown hother⟩

end NativeBuild.Diagnostic
