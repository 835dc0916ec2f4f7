import NativeBuild.Program.Refinement

namespace NativeBuild

inductive CodegenFailure where
  | importing (method : String) (cause : ImportFailure)
  | failed (reason : String)
  deriving DecidableEq, Repr

def CodegenFailure.message : CodegenFailure → String
  | importing method _ => s!"failed to compile '{method}'"
  | failed reason => s!"code generation failed: {reason}"

namespace ProgramGraph

def importMethod (g : ProgramGraph) (method : String) : Except CodegenFailure MethodBody :=
  match g.body method with
  | .ok b => .ok b
  | .error e => .error (.importing method e)

def importAll (g : ProgramGraph) : List String → Except CodegenFailure Unit
  | [] => .ok ()
  | m :: ms =>
    match g.importMethod m with
    | .ok _ => g.importAll ms
    | .error e => .error e

def asked (g : ProgramGraph) : List String → List String
  | [] => []
  | m :: ms => m :: (if (g.body m).isOk then g.asked ms else [])

def walk (g : ProgramGraph) : Nat → OrderedSet String → List String → Except CodegenFailure (OrderedSet String)
  | steps, seen, queue =>
    match steps, queue.dropWhile (fun m => decide (m ∈ seen)) with
    | _, [] => .ok seen
    | 0, _ :: _ => .ok seen
    | n + 1, m :: rest =>
      match g.importMethod m with
      | .ok b => g.walk n (seen.insert m) (rest ++ g.callees b)
      | .error e => .error e

def importReachable (g : ProgramGraph) : Option ScanResult → Except CodegenFailure Nat
  | some scan => (g.importAll scan.reachable.toList).map (fun _ => scan.reachable.size)
  | none => (g.walk g.names.length ∅ g.roots).map (·.size)

end ProgramGraph

end NativeBuild
