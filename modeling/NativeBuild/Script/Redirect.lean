import NativeBuild.Script.Expansion

namespace NativeBuild.Script

def openFault (doing missing target : String) (e : FileError) : String :=
  let reason := if e = .notFound || e = .notADirectory then missing else e.reason
  s!"cannot {doing} {target}: {reason}"

def openSink (s : Session) (descriptor : Nat) (target : String) (keep : Bool) : Except String Session :=
  match target with
  | "/dev/null" => .ok (s.point descriptor .nowhere)
  | "/dev/stdout" => .ok (s.point descriptor (s.sink 1))
  | "/dev/stderr" => .ok (s.point descriptor (s.sink 2))
  | _ =>
    let p : Path := ⟨target⟩
    match s.files.write p (if keep then (s.files.read p).toOption.getD [] else []) with
    | (.ok (), files) =>
      -- A later change of directory does not move the file.
      let fixed : Path := ((files.locate p).toOption.map (fun place => ⟨"/" ++ String.intercalate "/" place⟩)).getD p
      .ok ({ s with files }.point descriptor (.file fixed))
    | (.error e, _) => .error (openFault "create" "Directory nonexistent" target e)

def redirectOne (s : Session) (r : Redirection) (target : String) : Except String Session :=
  match r.kind with
  | .document => .ok { s with input := bytesOf target }
  | .duplicate =>
    match target.toNat? with
    | some n => if n = 0 then .ok s else .ok (s.point r.descriptor (s.sink n))
    | none => if target = "-" then .ok (s.point r.descriptor .nowhere) else .error "Syntax error: Bad fd number"
  | .read =>
    match source s.files s.input target with
    | .ok input => .ok { s with input }
    | .error .isADirectory => .ok { s with input := [] }
    | .error e => .error (openFault "open" "No such file" target e)
  | .write => openSink s r.descriptor target false
  | .append => openSink s r.descriptor target true

def redirectAll (p : Powers) : List Redirection → Session → Bool × Session
  | [], s => (true, s)
  | r :: rs, s =>
    let (target, s) := expandText p r.target s
    if s.isHalted then (false, s)
    else
      match redirectOne s r target with
      | .ok s => redirectAll p rs s
      | .error fault => (false, s.complain fault 2)

def Session.pointBack (s before : Session) (rs : List Redirection) : Session :=
  { s with
    sinks := before.sinks
    input := if rs.any (fun r => r.descriptor = 0) then before.input else s.input }

end NativeBuild.Script
