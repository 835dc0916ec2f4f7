import NativeBuild.Script.Redirect
import NativeBuild.Script.Token

namespace NativeBuild.Script

def wholeNumber? (s : String) : Option Nat := if s.all Char.isDigit then s.toNat? else none

def withNumber (s : Session) (name : String) (default : Nat) (args : List String) (act : Nat → Session) : Session :=
  match args with
  | [] => act default
  | text :: _ =>
    match wholeNumber? text with
    | some n => act n
    | none => s.fail s!"{name}: Illegal number: {text}"

/-- Leaves or goes on with a loop. Outside of loops it does nothing. -/
def leaveLoop (s : Session) (name : String) (halt : Nat → Halt) (args : List String) : Session :=
  withNumber s name 1 args (fun n =>
    let s := s.withStatus 0
    if s.loops = 0 then s else { s with halt := some (halt (min n s.loops)) })

def shift (s : Session) (args : List String) : Session :=
  withNumber s "shift" 1 args (fun n =>
    if s.args.length < n then s.fail "shift: can't shift that many"
    else { s with args := s.args.drop n, status := 0 })

def Switches.turn (sw : Switches) (on : Bool) (letter : Char) : Except String Switches :=
  if letter = 'e' then .ok { sw with stopOnFailure := on }
  else if letter = 'u' then .ok { sw with needValues := on }
  else if "afmnvx".contains letter then .ok sw
  else .error s!"Illegal option -{letter}"

def takeSwitches (sw : Switches) : List String → Except String (Switches × Option (List String))
  | [] => .ok (sw, none)
  | arg :: rest =>
    match arg.toList with
    | ['-', '-'] => .ok (sw, some rest)
    | '-' :: c :: cs => do takeSwitches (← (c :: cs).foldlM (fun sw c => sw.turn true c) sw) rest
    | '+' :: c :: cs => do takeSwitches (← (c :: cs).foldlM (fun sw c => sw.turn false c) sw) rest
    | _ => .ok (sw, some (arg :: rest))

def setSwitches (s : Session) (args : List String) : Session :=
  match takeSwitches s.switches args with
  | .error e => s.fail s!"set: {e}"
  | .ok (switches, rest) => { s with switches, status := 0, args := rest.getD s.args }

def splitAssignment (text : String) : String × Option String :=
  match text.toList.dropWhile (· != '=') with
  | _ :: value => (String.ofList (text.toList.takeWhile (· != '=')), some (String.ofList value))
  | [] => (text, none)

def exportNames (s : Session) (args : List String) : Session :=
  args.foldl
    (fun s arg =>
      match splitAssignment arg with
      | (name, some value) => (s.set name value).share name
      | (name, none) => s.share name)
    (s.withStatus 0)

def changeDirectory (s : Session) (args : List String) : Session :=
  let target := args.headD ((s.value? "HOME").getD "")
  match if s.files.isDirectory ⟨target⟩ then s.files.locate ⟨target⟩ else .error .notADirectory with
  | .error _ => s.complain s!"cd: can't cd to {target}" 2
  | .ok place =>
    let s := { s with files := s.files.enter place, status := 0 }
    s.set "PWD" (hereText s.files)

def kill (s : Session) (args : List String) : Session :=
  let signals : List (String × Nat) := [("HUP", 1), ("INT", 2), ("QUIT", 3), ("ABRT", 6), ("KILL", 9), ("SEGV", 11), ("TERM", 15)]
  let named (name : String) : Option Nat := (wholeNumber? name).or ((signals.find? (fun e => e.1 = name)).map (·.2))
  let (signal, target) : Option Nat × String :=
    match args with
    | "-s" :: name :: target :: _ => (named name, target)
    | [option, target] => (named (String.ofList option.toList.tail), target)
    | _ => (some 15, args.headD "")
  match signal with
  | none => s.complain "kill: Illegal option" 2
  | some n =>
    if target ≠ toString Session.ownNumber then s.complain "kill: No such process\n" 1
    else if n = 0 then s.withStatus 0
    else { s with halt := some (.ended (.killed n)) }

def readNames (s : Session) (args : List String) : Session :=
  let names := args.filter (· != "-r")
  let text := Text.decodeLossy s.input
  let line := text.takeWhile (· != '\n')
  let rest := text.drop (line.length + 1)
  let isGap (c : Char) : Bool := c == ' ' || c == '\t'
  let take (r : Session × List Char) (name : String) : Session × List Char :=
    let cs := r.2.dropWhile isGap
    let word := if some name = names.getLast? then (cs.reverse.dropWhile isGap).reverse else cs.takeWhile (!isGap ·)
    (r.1.set name (String.ofList word), cs.drop word.length)
  let s := (names.foldl take (s, line)).1
  { s with input := Text.encodeUtf8 rest, status := if text.contains '\n' then 0 else 1 }

def builtIn? (name : String) : Option (Session → List String → Session) :=
  match name with
  | ":" => some (fun s _ => s.withStatus 0)
  | "break" => some (fun s args => leaveLoop s name .leaving args)
  | "cd" => some changeDirectory
  | "continue" => some (fun s args => leaveLoop s name .again args)
  | "exit" => some (fun s args => withNumber s name s.status args (fun n => s.exit (n % 256)))
  | "export" => some exportNames
  | "kill" => some kill
  | "read" => some readNames
  | "return" =>
    some (fun s args => withNumber s name s.status args (fun status => { s with status, halt := some .returned }))
  | "set" => some setSwitches
  | "shift" => some shift
  | "unset" => some (fun s args => { s with vars := args.foldl (fun vs n => vs.erase n) s.vars, status := 0 })
  | _ =>
    match Utility.ofName? name with
    | some u => if u.isBuiltIn then some (fun s args => s.take u (u.perform s.files s.input args)) else none
    | none => none

end NativeBuild.Script
