import NativeBuild.Diagnostic
import NativeBuild.Text.Blank
import NativeBuild.Text.Run
import NativeBuild.Text.Split
import NativeBuild.Text.Word

namespace NativeBuild.Diagnostic

open Text (afterChar afterWord takeRun)

def readSeverity (cs : List Char) : Option (Severity × List Char) :=
  Severity.all.findSome? (fun s => (afterWord s.name.toList cs).map (fun rest => (s, rest)))

def isLetter (c : Char) : Bool := ('a' ≤ c && c ≤ 'z') || ('A' ≤ c && c ≤ 'Z')

def readCode (cs : List Char) : Option (List Char × List Char) := do
  let (letters, rest) ← takeRun isLetter cs
  let (digits, rest) ← takeRun Text.isDigit rest
  return (letters ++ digits, rest)

def afterColon (cs : List Char) : Option (List Char) :=
  (afterChar ':' (Text.trimStart cs)).map Text.trimStart

def readReport (cs : List Char) : Option (Severity × List Char × List Char) := do
  let (severity, rest) ← readSeverity cs
  let (_, rest) ← takeRun Text.isBlank rest
  let (code, rest) ← readCode rest
  let message ← afterColon rest
  if '\n' ∈ message then none else return (severity, code, message)

def skipEnd (cs : List Char) : Option (List Char) :=
  match afterChar ',' cs with
  | none => some cs
  | some rest => do
    let (_, rest) ← takeRun Text.isDigit rest
    let rest ← afterChar ',' rest
    let (_, rest) ← takeRun Text.isDigit rest
    return rest

def readPlace (cs : List Char) : Option (List Char × List Char × List Char) := do
  let rest ← afterChar '(' cs
  let (line, rest) ← takeRun Text.isDigit rest
  let rest ← afterChar ',' rest
  let (column, rest) ← takeRun Text.isDigit rest
  let rest ← skipEnd rest
  let rest ← afterChar ')' rest
  let rest ← afterColon rest
  return (line, column, rest)

structure PlacedReport where
  path : List Char
  line : List Char
  column : List Char
  report : Severity × List Char × List Char

/-- The shortest path, of one character or more, after which a place and a report follow. -/
def readPlaced (path : List Char) : List Char → Option PlacedReport
  | [] => none
  | c :: cs =>
    let here :=
      if path = [] then none
      else (readPlace (c :: cs)).bind (fun (line, column, rest) =>
        (readReport rest).map (fun report => ⟨path, line, column, report⟩))
    match here with
    | some found => some found
    | none => if c = '\n' then none else readPlaced (path ++ [c]) cs

def ofReport (location : Option SourceLocation) (report : Severity × List Char × List Char) : Diagnostic where
  message := String.ofList report.2.2
  severity := report.1
  code := some (String.ofList report.2.1)
  location
  suggestions := []

def ofLine (line : String) : Option Diagnostic :=
  let cs := Text.trimEnd line.toList
  match readPlaced [] cs with
  | some p => do
    let line ← Text.readWord p.line
    let column ← Text.readWord p.column
    return ofReport (some ⟨Path.ofChars p.path, line, column⟩) p.report
  | none => (readReport cs).map (ofReport none)

def lines (text : String) : List String := (Text.terminatedPieces '\n' text.toList).map String.ofList

def ofOutput (output : String) : List Diagnostic := (lines output).filterMap ofLine

end NativeBuild.Diagnostic
