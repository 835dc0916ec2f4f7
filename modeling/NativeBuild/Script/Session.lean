import NativeBuild.Ordered.Map
import NativeBuild.Script.Syntax
import NativeBuild.Script.Utility
import NativeBuild.Tools

namespace NativeBuild.Script

inductive Sink where
  | out
  | err
  | captured
  | nowhere
  | file (p : Path)
  deriving DecidableEq, Repr

structure Variable where
  value : String
  exported : Bool := false
  deriving DecidableEq, Repr

inductive Halt where
  | ended (e : Ending)
  | leaving (loops : Nat)
  | again (loops : Nat)
  | returned
  deriving DecidableEq, Repr

structure Switches where
  stopOnFailure : Bool := false
  needValues : Bool := false
  deriving DecidableEq, Repr

structure Session where
  files : FileTree
  vars : OrderedMap String Variable := ∅
  functions : List (String × Statement) := []
  name : String := "sh"
  args : List String := []
  line : Nat := 1
  switches : Switches := {}
  input : List UInt8 := []
  sinks : List (Nat × Sink) := [(1, .out), (2, .err)]
  printed : List Printed := []
  captured : List UInt8 := []
  status : Nat := 0
  substituted : Nat := 0
  tested : Bool := false
  loops : Nat := 0
  halt : Option Halt := none

namespace Session

def isHalted (s : Session) : Bool := s.halt.isSome

def withStatus (s : Session) (status : Nat) : Session := { s with status }

def exit (s : Session) (status : Nat) : Session := { s with status, halt := some (.ended (.exited status)) }

def sink (s : Session) (descriptor : Nat) : Sink :=
  ((s.sinks.find? (fun e => e.1 = descriptor)).map (·.2)).getD .nowhere

def point (s : Session) (descriptor : Nat) (sink : Sink) : Session :=
  { s with sinks := (descriptor, sink) :: s.sinks.filter (fun e => e.1 ≠ descriptor) }

def send (s : Session) (sink : Sink) (bytes : List UInt8) : Session :=
  match sink with
  | .out => { s with printed := s.printed ++ [⟨false, bytes⟩] }
  | .err => { s with printed := s.printed ++ [⟨true, bytes⟩] }
  | .captured => { s with captured := s.captured ++ bytes }
  | .nowhere => s
  | .file p =>
    if bytes = [] then s
    else { s with files := (s.files.write p ((s.files.read p).toOption.getD [] ++ bytes)).2 }

def print (s : Session) (ps : List Printed) : Session :=
  ps.foldl (fun s p => s.send (s.sink (if p.isError then 2 else 1)) p.bytes) s

def tell (s : Session) (what : String) : Session := s.send (s.sink 2) (bytesOf s!"{s.name}: {s.line}: {what}\n")

def complain (s : Session) (what : String) (status : Nat) : Session := (s.tell what).withStatus status

def fail (s : Session) (what : String) : Session := (s.tell what).exit 2

def ownNumber : Nat := 4711

def value? (s : Session) (name : String) : Option String :=
  match name with
  | "@" | "*" => if s.args = [] then none else some (String.intercalate " " s.args)
  | "#" => some (toString s.args.length)
  | "?" => some (toString s.status)
  | "$" => some (toString ownNumber)
  | "0" => some s.name
  | _ =>
    match name.toNat? with
    | some n => s.args[n - 1]?
    | none => (s.vars.get? name).map (·.value)

def set (s : Session) (name value : String) : Session :=
  let exported := ((s.vars.get? name).map (·.exported)).getD false
  { s with vars := s.vars.insert name { value, exported } }

def setAll (s : Session) (es : List (String × String)) : Session := es.foldl (fun s e => s.set e.1 e.2) s

def share (s : Session) (name : String) : Session :=
  { s with vars := s.vars.insert name { value := (s.value? name).getD "", exported := true } }

def restore (s : Session) (name : String) (before : Option Variable) : Session :=
  match before with
  | some v => { s with vars := s.vars.insert name v }
  | none => { s with vars := s.vars.erase name }

def environment (s : Session) : Environment :=
  s.vars.toList.foldl (fun env e => if e.2.exported then env.insert e.1 e.2.value else env) ∅

def outcome (s : Session) : Ending :=
  match s.halt with
  | some (.ended e) => e
  | _ => .exited s.status

def statusOf : Ending → Nat
  | .exited code => code
  | .killed signal => 128 + signal

def rejoin (s part : Session) : Session :=
  { s with
    files := part.files.enter s.files.workingDirectory
    printed := part.printed
    captured := part.captured
    input := part.input
    status := statusOf part.outcome
    halt :=
      match part.halt with
      | some (.ended (.killed signal)) => some (.ended (.killed signal))
      | _ => s.halt }

def take (s : Session) (u : Utility) (e : Effect) : Session :=
  let s := { s with files := e.files, status := e.status, input := e.rest }
  s.print (e.printed (fun fault => s!"{s.name}: {s.line}: {u.name}: {fault}\n"))

end Session

end NativeBuild.Script
