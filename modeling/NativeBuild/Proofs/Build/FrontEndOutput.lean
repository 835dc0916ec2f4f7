import NativeBuild.Build.Toolchain
import NativeBuild.Proofs.Diagnostic.Output
import NativeBuild.Proofs.Files.Effects

namespace NativeBuild

def Diagnostic.Separated (a b : List Char) : Prop :=
  a = [] ∨ b = [] ∨ a.getLast? = some '\n' ∨ b.head? = some '\n'

instance (a b : List Char) : Decidable (Diagnostic.Separated a b) :=
  inferInstanceAs (Decidable (_ ∨ _ ∨ _ ∨ _))

theorem Diagnostic.ofOutput_append {a b : List Char} (h : Separated a b) :
    ofOutput (String.ofList (a ++ b)) = ofOutput (String.ofList a) ++ ofOutput (String.ofList b) := by
  have hbreak (x y : List Char) :
      ofOutput (String.ofList (x ++ '\n' :: y)) = ofOutput (String.ofList x) ++ ofOutput (String.ofList y) := by
    rw [← ofOutput_append_break]
    congr 1
    simp [← String.toList_inj]
  have hempty : ofOutput (String.ofList []) = [] := ofOutput_empty
  obtain rfl | rfl | ha | hb := h
  · rw [hempty, List.nil_append, List.nil_append]
  · rw [hempty, List.append_nil, List.append_nil]
  · obtain ⟨front, rfl⟩ : ∃ front, a = front ++ ['\n'] := List.getLast?_eq_some_iff.mp ha
    rw [List.append_assoc, List.singleton_append, hbreak, hbreak, hempty, List.append_nil]
  · obtain ⟨rest, rfl⟩ : ∃ rest, b = '\n' :: rest := List.head?_eq_some_iff.mp hb
    have hrest := hbreak [] rest
    rw [List.nil_append, hempty, List.nil_append] at hrest
    rw [hbreak, hrest]

namespace Toolchain

def streamText (bytes : List UInt8) : String := String.ofList (Text.decodeLossy bytes)

def told (bytes : List UInt8) : List Diagnostic := (Diagnostic.lines (streamText bytes)).filterMap Diagnostic.ofLine

def TellsError (bytes : List UInt8) : Prop :=
  ∃ line ∈ Diagnostic.lines (streamText bytes), ∃ d, Diagnostic.ofLine line = some d ∧ d.isError = true

structure Accounted (request : FrontEndRequest) (r : ToolRun) (reply : Reply (Except FrontEndFailure Il)) : Prop where
  ok_iff : (∃ il, reply.result = .ok il) ↔
    r.succeeded = true ∧ ¬ TellsError r.output.out ∧ ¬ TellsError r.output.err
  warnings : ∀ il, reply.result = .ok il → il.warnings = told r.output.out ++ told r.output.err
  removed : ∀ failure, reply.result = .error failure → reply.files.isFile request.output = false
  refused_iff : (∃ found, reply.result = .error (.diagnostics found)) ↔
    TellsError r.output.out ∨ TellsError r.output.err
  shown : ∀ found, reply.result = .error (.diagnostics found) → found = told r.output.out ++ told r.output.err

variable {bytes : List UInt8}

theorem told_any_isError : (told bytes).any (·.isError) = true ↔ TellsError bytes := by
  simp only [told, TellsError, List.any_eq_true, List.mem_filterMap]
  constructor
  · rintro ⟨d, ⟨line, hline, hread⟩, herror⟩
    exact ⟨line, hline, d, hread, herror⟩
  · rintro ⟨line, hline, d, hread, herror⟩
    exact ⟨d, ⟨line, hline, hread⟩, herror⟩

theorem diagnosticsOf_eq {o : Output} (h : Diagnostic.Separated (Text.decodeLossy o.out) (Text.decodeLossy o.err)) :
    diagnosticsOf o = told o.out ++ told o.err := Diagnostic.ofOutput_append h

theorem compile_accounted (c : Toolchain) (files : FileTree) (request : FrontEndRequest) (r : ToolRun)
    (hstart : c.machine.start files ⟨c.frontEnd, request.args⟩ = .ok r)
    (hseparated : Diagnostic.Separated (Text.decodeLossy r.output.out) (Text.decodeLossy r.output.err)) :
    Accounted request r (c.compile files request) := by
  have hfound := diagnosticsOf_eq hseparated
  have herror : (diagnosticsOf r.output).any (·.isError) = true ↔
      TellsError r.output.out ∨ TellsError r.output.err := by
    rw [hfound, List.any_append, Bool.or_eq_true, told_any_isError, told_any_isError]
  by_cases htells : TellsError r.output.out ∨ TellsError r.output.err
  · have hreply : c.compile files request =
        ⟨.error (.diagnostics (diagnosticsOf r.output)), r.files.removeQuietly request.output, {}⟩ := by
      simp [compile, hstart, herror.mpr htells]
    rw [hreply, hfound]
    constructor
    · simpa [← not_or] using fun _ => htells
    · simp
    · simp [FileTree.isFile_removeQuietly_self]
    · simp [htells]
    · simp
  · have hnone : (diagnosticsOf r.output).any (·.isError) = false := Bool.eq_false_iff.mpr (mt herror.mp htells)
    cases hended : r.succeeded with
    | true =>
      have hreply : c.compile files request = ⟨.ok ⟨request.output, diagnosticsOf r.output⟩, r.files, {}⟩ := by
        simp [compile, hstart, hnone, hended]
      rw [hreply, hfound]
      constructor <;> simp [hended, htells, ← not_or]
    | false =>
      have hreply : c.compile files request = ⟨.error (.tool (exitedMessage c.frontEnd.text r.ending.code)),
          r.files.removeQuietly request.output, {}⟩ := by
        simp [compile, hstart, hnone, hended]
      rw [hreply]
      constructor <;> simp [hended, htells, FileTree.isFile_removeQuietly_self]

def printing (o : Output) : Toolchain where
  machine.start files _ := .ok ⟨.exited 0, (files.write ⟨"/out.dll"⟩ []).2, o⟩
  frontEnd := ⟨"fe"⟩
  codegen := ⟨"ilc"⟩
  temporary := ⟨"/tmp"⟩

def printed (o : Output) : ToolRun := ⟨.exited 0, (FileTree.empty.write ⟨"/out.dll"⟩ []).2, o⟩

def smallRequest : FrontEndRequest where
  sources := [⟨"a.cs"⟩]
  references := []
  defines := []
  langVersion := none
  outputKind := .executable
  debugInfo := false
  deterministic := false
  optimize := false
  output := ⟨"/out.dll"⟩

def endedLine : Output where
  out := Text.encodeUtf8 "a.cs(1,1): warning CS0168: unused\n".toList
  err := Text.encodeUtf8 "error CS5001: no entry point".toList

theorem endedLine_compile_accounted :
    (printing endedLine).machine.start .empty ⟨(printing endedLine).frontEnd, smallRequest.args⟩ =
        .ok (printed endedLine) ∧
      Diagnostic.Separated (Text.decodeLossy endedLine.out) (Text.decodeLossy endedLine.err) ∧
      (printed endedLine).files.isFile smallRequest.output = true ∧
      Accounted smallRequest (printed endedLine) ((printing endedLine).compile .empty smallRequest) := by
  have hseparated : Diagnostic.Separated (Text.decodeLossy endedLine.out) (Text.decodeLossy endedLine.err) := by
    decide +kernel
  exact ⟨rfl, hseparated, by decide +kernel, compile_accounted _ _ _ _ rfl hseparated⟩

def unendedLine : Output where
  out := Text.encodeUtf8 "done".toList
  err := Text.encodeUtf8 "error CS5001: no entry point\n".toList

theorem unendedLine_hides_error :
    TellsError unendedLine.err ∧
      ((printing unendedLine).compile .empty smallRequest).result = .ok ⟨smallRequest.output, []⟩ ∧
      ¬ Accounted smallRequest (printed unendedLine) ((printing unendedLine).compile .empty smallRequest) := by
  have htells : TellsError unendedLine.err :=
    ⟨"error CS5001: no entry point", by decide +kernel, ⟨"no entry point", .error, some "CS5001", none, []⟩,
      by decide +kernel, rfl⟩
  have hnone : diagnosticsOf unendedLine = [] := by decide +kernel
  have hresult : ((printing unendedLine).compile .empty smallRequest).result = .ok ⟨smallRequest.output, []⟩ := by
    simp [compile, printing, hnone, ToolRun.succeeded]
  refine ⟨htells, hresult, fun h => ?_⟩
  exact (h.ok_iff.mp ⟨_, hresult⟩).2.2 htells

end Toolchain

end NativeBuild
