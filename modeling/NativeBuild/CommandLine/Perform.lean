import NativeBuild.Build.Run
import NativeBuild.Build.Toolchain
import NativeBuild.CommandLine.Options
import NativeBuild.Settings.Read
import NativeBuild.Tools

namespace NativeBuild

structure Surroundings where
  files : FileTree
  environment : Environment
  machine : Machine
  host : Host := {}
  installed : Path := ⟨"."⟩
  terminal : Bool := false

structure CallResult where
  exitCode : Int
  files : FileTree
  output : Output := {}

def Output.message (text : String) : Output := ⟨[], Text.encodeUtf8 text.toList⟩

def Output.line (text : String) : Output := ⟨Text.encodeUtf8 (text ++ "\n").toList, []⟩

namespace Surroundings

def cwd (w : Surroundings) : Path := ⟨"/" ++ String.intercalate "/" w.files.workingDirectory⟩

def setting? (w : Surroundings) (name : String) : Option String :=
  (w.environment.get? name).bind (fun v => if v = "" then none else some v)

def configDirectory? (w : Surroundings) : Option Path :=
  let named := ((w.setting? "XDG_CONFIG_HOME").map Path.mk).filter (·.isAbsolute)
  named.or ((w.setting? "HOME").map (fun home => (⟨home⟩ : Path).child ".config"))

def settings (w : Surroundings) : Settings := Settings.loadAll w.files w.configDirectory? w.cwd

def searchPath (w : Surroundings) : List Path :=
  let home : Path := ⟨(w.setting? "HOME").getD ""⟩
  (((w.environment.get? "PATH").map Tools.splitDirectories).getD []).map
    (fun d => (Tools.expandHome home d).startingAt w.cwd)

def tools (w : Surroundings) (s : Settings) : Tools :=
  Tools.resolve w.files w.searchPath (w.environment.filter (fun _ v => v != "")) s.tools w.installed

def temporary (w : Surroundings) : Path := ⟨(w.setting? "TMPDIR").getD "/tmp"⟩

def toolchain (w : Surroundings) (tools : Tools) (printCommands : Bool) : Toolchain where
  machine := w.machine
  frontEnd := tools.frontEnd
  codegen := tools.codegen
  temporary := w.temporary
  printCommands

end Surroundings

def Diagnostic.shown (found : List Diagnostic) (color : Bool) : Output :=
  Output.message (String.join (found.map (·.format color)))

def Event.shown (e : Event) (color : Bool) : Output :=
  match e.deed with
  | .reported found => Diagnostic.shown found color
  | _ => e.output

def Trace.shown (trace : Trace) (color : Bool) : Output := trace.foldl (fun o e => o ++ e.shown color) {}

namespace Call

def failed (w : Surroundings) (reason : String) : CallResult :=
  ⟨1, w.files, Output.message ("error: " ++ reason ++ "\n")⟩

def build (w : Surroundings) (console : Console) (tools : Tools) (o : BuildOptions) : CallResult :=
  match o.prepare w.files w.cwd tools w.host with
  | .error e => failed w e.message
  | .ok c =>
    if c.sources = [] then failed w (PreparationError.noInputs w.cwd).message
    else
      let (report, b) := Build.run c (w.toolchain tools o.printCommands).workshop (w.temporary.child "aotbuild") w.files
      let last :=
        match report.failure with
        | some f => console.status .error f.display
        | none => console.status .finished (if c.policy.noLink then c.paths.object else c.paths.output).text
      ⟨report.exitCode, b.files, b.trace.shown console.color ++ Output.message last⟩

def linkPlan (w : Surroundings) (tools : Tools) (o : BuildOptions) : CallResult :=
  match o.linkPlan w.files w.cwd tools w.host with
  | .error e => failed w e.message
  | .ok command => ⟨0, w.files, Output.line command.line⟩

def il (w : Surroundings) (console : Console) (tools : Tools) (o : IlOptions) : CallResult :=
  match o.request w.files w.cwd tools w.host with
  | .error e => failed w e.message
  | .ok request =>
    let reply := (w.toolchain tools false).compile w.files request
    match reply.result with
    | .ok il =>
      ⟨0, reply.files,
        Diagnostic.shown il.warnings console.color ++ Output.message (console.status .finished il.path.text)⟩
    | .error e =>
      ⟨1, reply.files,
        Diagnostic.shown e.shown console.color ++ Output.message (console.status .error e.message)⟩

def after (o : Output) (r : CallResult) : CallResult := { r with output := o ++ r.output }

def withStdlib (w : Surroundings) (console : Console) (given : Given) (s : Settings)
    (act : StandardLibrary → CallResult) : CallResult :=
  match given.stdlib s with
  | .error e => failed w e
  | .ok (stdlib, none) => act stdlib
  | .ok (stdlib, some warning) => after (Output.message (console.status .warning warning)) (act stdlib)

def run (w : Surroundings) (call : Invocation) : CallResult :=
  let console := Console.ofFlags call.quiet call.verbose call.color w.terminal
  let s := w.settings
  let tools := w.tools s
  let given := call.given
  match call.subcommand with
  | .completions => ⟨0, w.files, {}⟩
  | .build => withStdlib w console given s (fun l => build w console tools (given.buildOptions s l))
  | .linkPlan => withStdlib w console given s (fun l => linkPlan w tools (given.buildOptions s l))
  | .il => withStdlib w console given s (fun l => il w console tools (given.ilOptions s l))

def perform (w : Surroundings) (args : List String) : CallResult :=
  match Invocation.read args with
  | .error e => ⟨e.exitCode, w.files, {}⟩
  | .ok call => run w call

end Call

end NativeBuild
