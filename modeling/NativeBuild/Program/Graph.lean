import NativeBuild.Ordered.Set

namespace NativeBuild

structure MethodBody where
  directCalls : List String := []
  virtualCalls : List String := []
  allocatedTypes : List String := []
  typeChecks : List String := []
  dictionaryLookups : List String := []
  deriving DecidableEq, Repr, Inhabited

structure ImportFailure where
  method : String
  reason : String
  deriving DecidableEq, Repr

def ImportFailure.message (e : ImportFailure) : String := s!"failed to import '{e.method}': {e.reason}"

structure Implementation where
  type : String
  method : String
  deriving DecidableEq, Repr

structure ProgramGraph where
  roots : List String
  body : String → Except ImportFailure MethodBody
  implementations : String → List Implementation
  exports : List String
  names : List String
  root_mem : ∀ m ∈ roots, m ∈ names
  call_mem : ∀ m b, body m = .ok b → ∀ c ∈ b.directCalls, c ∈ names
  implementation_mem : ∀ slot, ∀ i ∈ implementations slot, i.method ∈ names

namespace ProgramGraph

def targets (g : ProgramGraph) (types : OrderedSet String) (slot : String) : List String :=
  ((g.implementations slot).filter (fun i => decide (i.type ∈ types))).map (·.method)

def callees (g : ProgramGraph) (b : MethodBody) : List String :=
  b.directCalls ++ b.virtualCalls.flatMap (fun slot => (g.implementations slot).map (·.method))

theorem mem_targets {g : ProgramGraph} {types : OrderedSet String} {slot m : String} :
    m ∈ g.targets types slot ↔ ∃ i ∈ g.implementations slot, i.type ∈ types ∧ i.method = m := by
  simp only [targets, List.mem_map, List.mem_filter, decide_eq_true_eq, and_assoc]

end ProgramGraph

end NativeBuild
