import NativeBuild.Script.Pattern
import NativeBuild.Script.Session

namespace NativeBuild.Script

structure Started where
  ending : Ending
  files : FileTree
  printed : List Printed
  rest : List UInt8

structure Powers where
  substitute : Session → Nat → List Char → List Char × Session
  call : Session → Statement → Session
  launch : Environment → FileTree → List UInt8 → Command → Except FileError Started

inductive Piece where
  | solid (ms : Marked)
  | loose (cs : List Char)
  | boundary
  deriving DecidableEq, Repr

def piece (quoted : Bool) (value : String) : Piece :=
  if quoted then .solid (mark true value.toList) else .loose value.toList

def splitLoose : Option Marked → List Char → List Marked × Option Marked
  | field, [] => ([], field)
  | field, c :: cs =>
    if c == ' ' || c == '\t' || c == '\n' then
      let (fields, last) := splitLoose none cs
      (field.toList ++ fields, last)
    else splitLoose (some (field.getD [] ++ [⟨c, false⟩])) cs

def splitPieces : Option Marked → List Piece → List Marked
  | field, [] => field.toList
  | field, .solid ms :: ps => splitPieces (some (field.getD [] ++ ms)) ps
  | field, .loose cs :: ps =>
    let (fields, last) := splitLoose field cs
    fields ++ splitPieces last ps
  | field, .boundary :: ps => field.toList ++ splitPieces none ps

def fieldsOf (s : Session) (ps : List Piece) : List String :=
  (splitPieces none ps).flatMap (fun ms => ms.files s.files)

def joinedMarks (ps : List Piece) : Marked :=
  ps.flatMap (fun p => match p with | .solid ms => ms | .loose cs => mark false cs | .boundary => mark true [' '])

def joined (ps : List Piece) : String := String.ofList (plainText (joinedMarks ps))

def valuePieces (s : Session) (name : String) (quoted : Bool) : List Piece :=
  if name = "@" || (name = "*" && !quoted) then (s.args.map (piece quoted)).intersperse .boundary
  else [piece quoted ((s.value? name).getD "")]

def requireValue (s : Session) (name : String) : Session :=
  if s.switches.needValues && (s.value? name).isNone && name ≠ "@" && name ≠ "*" then
    s.fail s!"{name}: parameter not set"
  else s

def formulaVariable (s : Session) (name : String) : Except String Int64 :=
  match s.value? name with
  | none | some "" => .ok 0
  | some text =>
    match Formula.number? text with
    | some n => .ok n
    | none => .error ("Illegal number: " ++ text)

/-- A word in braces is split where the braces are not quoted. -/
def loosen (quoted : Bool) (ps : List Piece) : List Piece :=
  if quoted then ps
  else
    ps.map (fun p =>
      match p with
      | .solid ms => if ms ≠ [] && ms.all (fun m => !m.quoted) then .loose (plainText ms) else p
      | p => p)

mutual

def expandPart (p : Powers) : Part → Session → List Piece × Session
  | .text cs quoted, s => ([.solid (mark quoted cs)], s)
  | .value name quoted, s => (valuePieces s name quoted, requireValue s name)
  | .trimmed name cut pattern quoted, s =>
    let (ps, s) := expandParts p pattern (requireValue s name)
    ([piece quoted (String.ofList (cut.apply (joinedMarks ps) ((s.value? name).getD "").toList))], s)
  | .fallback name kind emptyToo word quoted, s =>
    let isThere := match s.value? name with | some v => !(emptyToo && v = "") | none => false
    match kind, isThere with
    | .other, true | .assign, true | .fail, true => (valuePieces s name quoted, s)
    | .instead, false => (if quoted then [.solid []] else [], s)
    | .instead, true | .other, false =>
      let (ps, s) := expandParts p word s
      (if quoted && ps.isEmpty then [.solid []] else loosen quoted ps, s)
    | .assign, false =>
      let (ps, s) := expandParts p word s
      ([piece quoted (joined ps)], s.set name (joined ps))
    | .fail, false =>
      let (ps, s) := expandParts p word s
      let reason := if word.isEmpty then "parameter not set" else joined ps
      ([], s.fail s!"{name}: {reason}")
  | .output script line quoted, s =>
    let (cs, s) := p.substitute s line script
    ([piece quoted (String.ofList cs)], s)
  | .number formula quoted, s =>
    let (ps, s) := expandParts p formula s
    match Formula.eval (formulaVariable s) (joined ps).toList with
    | .ok n => ([piece quoted (toString n.toInt)], s)
    | .error e => ([], if s.isHalted then s else s.fail s!"arithmetic expression: {e}: \"{joined ps}\"")

def expandParts (p : Powers) : List Part → Session → List Piece × Session
  | [], s => ([], s)
  | part :: rest, s =>
    if s.isHalted then ([], s)
    else
      let (ps, s) := expandPart p part s
      let (qs, s) := expandParts p rest s
      (ps ++ qs, s)

end

def expandMarks (p : Powers) (w : Word) (s : Session) : Marked × Session :=
  let (ps, s) := expandParts p w s
  (joinedMarks ps, s)

def expandText (p : Powers) (w : Word) (s : Session) : String × Session :=
  let (ps, s) := expandParts p w s
  (joined ps, s)

def expandFields (p : Powers) : List Word → Session → List String × Session
  | [], s => ([], s)
  | w :: ws, s =>
    if s.isHalted then ([], s)
    else
      let (ps, s) := expandParts p w s
      let fields := fieldsOf s ps
      let (more, s) := expandFields p ws s
      (fields ++ more, s)

def assignAll (p : Powers) : List (String × Word) → Session → List (String × String) × Session
  | [], s => ([], s)
  | (name, w) :: rest, s =>
    let (value, s) := expandText p w s
    if s.isHalted then ([], s)
    else
      let (es, s) := assignAll p rest (s.set name value)
      ((name, value) :: es, s)

end NativeBuild.Script
