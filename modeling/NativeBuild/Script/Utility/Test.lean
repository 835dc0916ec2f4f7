import NativeBuild.Script.Formula
import NativeBuild.Script.Utility.Basic

namespace NativeBuild.Script.Test

def unary? (t : FileTree) (op s : String) : Option Bool :=
  let p : Path := ⟨s⟩
  let isProgram := (utilityAt? t p).isOk
  match op with
  | "-n" => some (s != "")
  | "-z" => some (s == "")
  | "-e" | "-r" | "-w" => some (s == "/dev/null" || isProgram || t.exists? p)
  | "-f" => some (isProgram || t.isFile p)
  | "-d" => some (t.isDirectory p)
  | "-x" => some (isProgram || t.isExecutable p || t.isDirectory p)
  | "-s" => some (match t.lookup p with | .ok (.file bytes _) => !bytes.isEmpty | r => isProgram || r.isOk)
  | _ => none

def numberOf (s : String) : Except String Int :=
  match Formula.number? s with
  | some n => .ok n.toInt
  | none => .error ("Illegal number: " ++ s)

def binary? (a op b : String) : Option (Except String Bool) :=
  let compared (f : Int → Int → Bool) : Except String Bool := do return f (← numberOf a) (← numberOf b)
  match op with
  | "=" => some (.ok (a == b))
  | "!=" => some (.ok (a != b))
  | "-eq" => some (compared (· == ·))
  | "-ne" => some (compared (· != ·))
  | "-lt" => some (compared (· < ·))
  | "-le" => some (compared (· ≤ ·))
  | "-gt" => some (compared (· > ·))
  | "-ge" => some (compared (· ≥ ·))
  | _ => none

def holds (t : FileTree) : List String → Except String Bool
  | [] => .ok false
  | [a] => .ok (a != "")
  | [op, b] =>
    if op = "!" then .ok (b == "")
    else
      match unary? t op b with
      | some r => .ok r
      | none => .error (op ++ ": unexpected operator")
  | a :: op :: b :: rest =>
    match binary? a op b with
    | some r => if rest = [] then r else .error (rest.headD "" ++ ": unexpected operator")
    | none => if a = "!" then (holds t (op :: b :: rest)).map (!·) else .error (op ++ ": unexpected operator")

def perform (t : FileTree) (args : List String) : Effect :=
  match holds t args with
  | .ok b => { status := if b then 0 else 1, files := t }
  | .error e => { status := 2, files := t, faults := [e] }

def performBracketed (t : FileTree) (args : List String) : Effect :=
  if args.getLast? = some "]" then perform t args.dropLast else { status := 2, files := t, faults := ["missing ]"] }

end NativeBuild.Script.Test
