import NativeBuild.Script.Run
import NativeBuild.Text.Run

namespace NativeBuild.Script

structure Loaded where
  utility : Utility
  name : String
  args : List String
  deriving DecidableEq, Repr

/-- The program and the argument for it that the first line of a script names. Only so many bytes are looked
at, so a name that does not end within them is none. -/
def interpreter? (bytes : List UInt8) : Option (Path × Option String) := do
  let head := (bytes.take 256).takeWhile (· ≠ 0)
  let line ← Text.afterWord ['#', '!'] (Text.decodeLossy (head.takeWhile (· ≠ 10)))
  let text := ((line.dropWhile isSpace).reverse.dropWhile isSpace).reverse
  let name := text.takeWhile (fun c => !isSpace c)
  let arg := (text.dropWhile (fun c => !isSpace c)).dropWhile isSpace
  let isCut := head.length = 256 && !head.contains 10 && !(line.dropWhile isSpace).any isSpace
  if name = [] || isCut then none
  else return (Path.ofChars name, if arg = [] then none else some (String.ofList arg))

def load (t : FileTree) (tolerant : Bool) : Nat → Path → String → List String → Except FileError Loaded
  | 0, p, _, _ =>
    match t.lookup p, utilityAt? t p with
    | .ok _, _ | .error _, .ok _ => .error .tooManyLinks
    | .error e, .error _ => .error e
  | depth + 1, p, name, args =>
    match t.lookup p with
    | .ok (.file bytes true) =>
      match interpreter? bytes with
      | some (program, arg) => load t false depth program program.text (arg.toList ++ p.text :: args)
      | none => if tolerant then .ok ⟨.shell, "/bin/sh", p.text :: args⟩ else .error .notExecutable
    | .ok _ => .error .denied
    | .error .notFound => (utilityAt? t p).map (fun u => ⟨u, name, args⟩)
    | .error e => .error e

/-- The first program in some places that can be loaded. A place that has none does not count, one that may
not be used counts only if no other is found, and any other failure ends the search. -/
def loadFirst (attempt : Path → Except FileError Loaded) : List Path → Except FileError Loaded
  | [] => .error .notFound
  | p :: ps =>
    match attempt p with
    | .ok program => .ok program
    | .error .notFound | .error .notADirectory => if ps = [] then attempt p else loadFirst attempt ps
    | .error .denied =>
      match loadFirst attempt ps with
      | .error .notFound | .error .notADirectory => .error .denied
      | other => other
    | .error e => .error e

def programDirectories (env : Environment) : List Path :=
  ((env.get? "PATH").map Tools.splitDirectories).getD [⟨"/bin"⟩, ⟨"/usr/bin"⟩]

def findProgram (env : Environment) (t : FileTree) (tolerant : Bool) (c : Command) : Except FileError Loaded :=
  let attempt (p : Path) := load t tolerant 6 p c.program.text c.args
  if '/' ∈ c.program.chars then attempt c.program
  else if c.program.text = "" then .error .notFound
  else if FileTree.nameLimit < c.program.text.utf8ByteSize then .error .nameTooLong
  else loadFirst attempt ((programDirectories env).map (fun d => d.join c.program))

def ofSession (s : Session) : Started := ⟨s.outcome, s.files, s.printed, s.input⟩

def firstVariables (env : Environment) (t : FileTree) : OrderedMap String Variable :=
  let given := env.toList.filterMap (fun e =>
    if isName e.1.toList then some (e.1, ({ value := e.2, exported := true } : Variable)) else none)
  OrderedMap.ofList (given ++ [("PWD", { value := hereText t, exported := true })])

def runShell (p : Powers) (env : Environment) (t : FileTree) (input : List UInt8) (name : String)
    (args : List String) : Started :=
  let session : Session := { files := t, vars := firstVariables env t, input, name }
  let refuse (what : String) : Started := ⟨.exited 2, t, [⟨true, bytesOf s!"{name}: 0: {what}\n"⟩], input⟩
  let isText (arg : String) : Bool := arg.startsWith "-" && arg.contains 'c'
  let options := args.takeWhile (fun arg => arg.startsWith "-" || arg.startsWith "+")
  let letters := options.map (fun arg => String.ofList (arg.toList.filter (· != 'c')))
  match takeSwitches {} (letters.filter (· != "-")), args.drop options.length with
  | .error e, _ => refuse e
  | .ok (switches, _), [] =>
    if options.any isText then refuse "-c requires an argument"
    else ofSession (runText p { session with switches, input := [] } 1 (Text.decodeLossy input))
  | .ok (switches, _), first :: rest =>
    if options.any isText then
      ofSession (runText p { session with switches, name := rest.headD name, args := rest.tail } 1 first.toList)
    else
      match t.read ⟨first⟩ with
      | .ok bytes => ofSession (runText p { session with switches, name := first, args := rest } 1 (Text.decodeLossy bytes))
      | .error e => refuse (openFault "open" "No such file" first e)

def runEnvironment (p : Powers) (env : Environment) (t : FileTree) (input : List UInt8) (name : String)
    (args : List String) : Started :=
  let isGiven (arg : String) : Bool := arg.contains '=' && !arg.startsWith "="
  let env := (args.takeWhile isGiven).foldl
    (fun env arg => env.insert (splitAssignment arg).1 ((splitAssignment arg).2.getD "")) env
  match args.dropWhile isGiven with
  | [] =>
    let lines := env.toList.map (fun e => e.1 ++ "=" ++ e.2 ++ "\n")
    ⟨.exited 0, t, [⟨false, bytesOf (String.join lines)⟩], input⟩
  | program :: rest =>
    match p.launch env t input ⟨⟨program⟩, rest⟩ with
    | .ok r => r
    | .error e =>
      ⟨.exited (if e = .notFound then 127 else 126), t,
        [⟨true, bytesOf s!"{name}: {quoted program}: {e.reason}\n"⟩], input⟩

def runLoaded (p : Powers) (env : Environment) (t : FileTree) (input : List UInt8) (program : Loaded) : Started :=
  match program.utility with
  | .shell => runShell p env t input program.name program.args
  | .environment => runEnvironment p env t input program.name program.args
  | u =>
    let e := u.perform t input program.args
    ⟨.exited e.status, e.files, e.printed (fun fault => s!"{program.name}: {fault}\n"), e.rest⟩

def launch (p : Powers) (tolerant : Bool) (env : Environment) (t : FileTree) (input : List UInt8) (c : Command) :
    Except FileError Started :=
  (findProgram env t tolerant c).map (fun program =>
    let r := runLoaded p env t input program
    { r with files := r.files.enter t.workingDirectory })

def substituteWith (p : Powers) (s : Session) (first : Nat) (cs : List Char) : List Char × Session :=
  let part := runText p { s.point 1 .captured with captured := [], tested := false, loops := 0 } first cs
  let after := s.rejoin part
  let text := ((Text.decodeLossy part.captured).reverse.dropWhile (· == '\n')).reverse
  (text.filter (· ≠ '\x00'), { after with captured := s.captured, substituted := after.status, status := s.status })

def powers : Nat → Powers
  | 0 =>
    { substitute := fun s _ _ => ([], s.fail "nested too deep")
      call := fun s _ => s.fail "nested too deep"
      launch := fun _ _ _ _ => .error .tooManyLinks }
  | depth + 1 =>
    let p := powers depth
    { substitute := substituteWith p
      call := fun s body => run p body s
      launch := launch p true }

end NativeBuild.Script

namespace NativeBuild

def Machine.ofScripts (env : Environment) : Machine where
  start t c :=
    if (c.program.text :: c.args).any (·.contains '\x00') then .error .zeroInArgument
    else
      (Script.launch (Script.powers 1000) false env t [] c).map (fun r =>
        ⟨r.ending, r.files, ⟨Script.bytesIn false r.printed, Script.bytesIn true r.printed⟩⟩)

end NativeBuild
