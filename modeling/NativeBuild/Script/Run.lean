import NativeBuild.Script.BuiltIn
import NativeBuild.Script.Reader

namespace NativeBuild.Script

def Session.settle (s : Session) : Session :=
  if s.switches.stopOnFailure && !s.tested && s.status ≠ 0 && !s.isHalted then s.exit s.status else s

def Session.testing (s : Session) (act : Session → Session) : Session :=
  { act { s with tested := true } with tested := s.tested }

def startProgram (p : Powers) (s : Session) (name : String) (args : List String) : Ending × Session :=
  match p.launch s.environment s.files s.input ⟨⟨name⟩, args⟩ with
  | .ok r =>
    let s := { s with files := r.files.enter s.files.workingDirectory, input := r.rest }
    (r.ending, (s.print r.printed).withStatus (Session.statusOf r.ending))
  | .error e =>
    if e = .notFound || e = .notADirectory then (.exited 127, s.complain s!"{name}: not found" 127)
    else (.exited 126, s.complain s!"{name}: {e.reason}" 126)

def callFunction (p : Powers) (s : Session) (body : Statement) (args : List String) : Session :=
  let inner := p.call { s with args, loops := 0 } body
  { inner with
    args := s.args
    loops := s.loops
    halt :=
      match inner.halt with
      | some (.ended e) => some (.ended e)
      | _ => none }

def runNamed (p : Powers) (s : Session) (values : List (String × String)) (name : String) (args : List String) :
    Session :=
  let given := values.foldl (fun s v => (s.set v.1 v.2).share v.1) s
  let restored (after : Session) := values.foldl (fun after v => after.restore v.1 (s.vars.get? v.1)) after
  match s.functions.find? (fun f => f.1 = name), builtIn? name with
  | some (_, body), _ => restored (callFunction p given body args)
  | none, some act =>
    if specialCommands.contains name then act (s.setAll values) args else restored (act given args)
  | none, none =>
    if name = "exec" then
      match args with
      | [] => s.withStatus 0
      | program :: rest =>
        let (ending, s) := startProgram p given program rest
        { s with halt := some (.ended ending) }
    else restored (startProgram p given name args).2

def runSimple (p : Powers) (assignments : List (String × Word)) (words : List Word)
    (redirections : List Redirection) (s : Session) : Session :=
  let (fields, s) := expandFields p words { s with substituted := 0 }
  if s.isHalted then s
  else
    let (well, t) := redirectAll p redirections s
    if !well then
      let t := t.pointBack s redirections
      if specialCommands.contains (fields.headD "") && !t.isHalted then t.exit 2 else t
    else
      let (values, u) := assignAll p assignments t
      if u.isHalted then u.pointBack s redirections
      else
        match fields with
        | [] => (u.withStatus u.substituted).pointBack s redirections
        | name :: args =>
          -- The values have been worked out one with the other; they are set again for the command alone.
          let after := runNamed p { u with vars := t.vars } values name args
          if name = "exec" && args = [] then after else after.pointBack s redirections

def matchesAny (p : Powers) (subject : List Char) : List Word → Session → Bool × Session
  | [], s => (false, s)
  | w :: ws, s =>
    let (ms, s) := expandMarks p w s
    if s.isHalted then (false, s)
    else if ms.isMatch subject then (true, s)
    else matchesAny p subject ws s

/-- How a loop goes on after a round: whether there is another one, and the session without what the loop
itself has dealt with. -/
def Session.afterRound (s : Session) : Bool × Session :=
  match s.halt with
  | none => (true, s)
  | some (.leaving n) => (false, { s with halt := if n ≤ 1 then none else some (.leaving (n - 1)) })
  | some (.again n) =>
    if n ≤ 1 then (true, { s with halt := none }) else (false, { s with halt := some (.again (n - 1)) })
  | some _ => (false, s)

def runOver (name : String) (body : Session → Session) : List String → Session → Session
  | [], s => s
  | v :: vs, s =>
    match (body (s.set name v)).afterRound with
    | (true, s) => runOver name body vs s
    | (false, s) => s

def runRounds (holding : Bool) (test body : Session → Session) : Nat → Nat → Session → Session
  | 0, status, s => s.withStatus status
  | n + 1, status, s =>
    match (s.testing test).afterRound with
    | (false, s) => s
    | (true, t) =>
      if (t.status == 0) != holding then t.withStatus status
      else
        match (body t).afterRound with
        | (true, s) => runRounds holding test body n s.status s
        | (false, s) => s

def Session.looping (s : Session) (act : Session → Session) : Session :=
  { act { s with loops := s.loops + 1 } with loops := s.loops }

mutual

def run (p : Powers) : Statement → Session → Session
  | .simple line assignments words rs, s => (runSimple p assignments words rs { s with line }).settle
  | .both a b, s =>
    let s := s.testing (run p a)
    if !s.isHalted && s.status = 0 then run p b s else s
  | .either a b, s =>
    let s := s.testing (run p a)
    if !s.isHalted && s.status ≠ 0 then run p b s else s
  | .negated a, s =>
    let s := s.testing (run p a)
    if s.isHalted then s else s.withStatus (if s.status = 0 then 1 else 0)
  | .piped a b, s =>
    let left := run p a { s.point 1 .captured with captured := [], loops := 0 }
    let middle := { s.rejoin left with captured := s.captured }
    if middle.isHalted then middle
    else
      let right := run p b { middle with input := left.captured, loops := 0 }
      { middle.rejoin right with input := middle.input }.settle
  | .redirected line a rs, s =>
    let (well, t) := redirectAll p rs { s with line }
    (if well then run p a t else t).pointBack s rs
  | .loop line name words body, s =>
    let s := { s with line }
    let (values, s) :=
      match words with
      | some ws => expandFields p ws s
      | none => (s.args, s)
    if s.isHalted then s
    else s.looping (fun s => runOver name (runAll p body) values (if values = [] then s.withStatus 0 else s))
  | .rounds holding test body, s =>
    s.looping (fun s => runRounds holding (runAll p test) (runAll p body) 1000000 0 s)
  | .choice line subject arms, s =>
    let (text, s) := expandText p subject { s with line }
    if s.isHalted then s else runArms p text.toList arms s
  | .condition test yes no, s =>
    let s := s.testing (runAll p test)
    if s.isHalted then s
    else if s.status = 0 then runAll p yes s
    else runAll p no (if no.isEmpty then s.withStatus 0 else s)
  | .group body, s => runAll p body s
  | .apart body, s => (s.rejoin (runAll p body { s with loops := 0 })).settle
  | .define name body, s =>
    { s with functions := (name, body) :: s.functions.filter (fun f => f.1 ≠ name), status := 0 }

def runAll (p : Powers) : List Statement → Session → Session
  | [], s => s
  | a :: rest, s =>
    let s := run p a s
    if s.isHalted then s else runAll p rest s

def runArms (p : Powers) (subject : List Char) : List Arm → Session → Session
  | [], s => s.withStatus 0
  | .mk patterns body :: rest, s =>
    let (found, s) := matchesAny p subject patterns s
    if s.isHalted then s
    else if found then runAll p body (if body.isEmpty then s.withStatus 0 else s)
    else runArms p subject rest s

end

def runText (p : Powers) (s : Session) (first : Nat) (cs : List Char) : Session :=
  let commands := read first cs
  let s := runAll p commands.lines.flatten (if commands.lines = [] then s.withStatus 0 else s)
  match s.isHalted, commands.fault with
  | false, some fault => { s with line := fault.line }.fail s!"Syntax error: {fault.cause}"
  | _, _ => s

end NativeBuild.Script
