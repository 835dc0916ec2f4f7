import NativeBuild.Ordered.Group
import NativeBuild.Program.Graph

namespace NativeBuild

structure ScanResult where
  reachable : OrderedSet String
  allocated : OrderedSet String
  devirtualized : OrderedMap String String
  vtableLayout : OrderedMap String (OrderedSet String)
  dictionaryLayout : OrderedMap String (OrderedSet String)
  deadTypeChecks : OrderedSet String
  importFailures : OrderedMap String ImportFailure
  deriving DecidableEq, Repr

structure ScanState where
  reachable : OrderedSet String := ∅
  allocated : OrderedSet String := ∅
  calledSlots : OrderedSet String := ∅
  typeChecks : OrderedSet String := ∅
  dictionaryLayout : OrderedMap String (OrderedSet String) := ∅
  failures : OrderedMap String ImportFailure := ∅
  discovered : OrderedSet String := ∅
  deriving DecidableEq, Repr, Inhabited

namespace ScanState

def record (s : ScanState) (method : String) : Except ImportFailure MethodBody → ScanState
  | .ok b =>
    { s with
      discovered := s.discovered.insertAll b.directCalls
      calledSlots := s.calledSlots.insertAll b.virtualCalls
      allocated := s.allocated.insertAll b.allocatedTypes
      typeChecks := s.typeChecks.insertAll b.typeChecks
      dictionaryLayout := s.dictionaryLayout.addAll (b.dictionaryLookups.map (method, ·)) }
  | .error e => { s with failures := s.failures.insert method e }

def found (s : ScanState) (g : ProgramGraph) : OrderedSet String :=
  s.discovered.insertAll (s.calledSlots.toList.flatMap (g.targets s.allocated))

def nextWave (s : ScanState) (g : ProgramGraph) : List String := ((s.found g).diff s.reachable).toList

def enter (s : ScanState) (wave : List String) : ScanState :=
  { s with discovered := ∅, reachable := s.reachable.insertAll wave }

def importWave (s : ScanState) (g : ProgramGraph) (wave : List String) : ScanState :=
  wave.foldl (fun s m => s.record m (g.body m)) (s.enter wave)

end ScanState

structure ScanRun where
  waves : List (List String)
  final : ScanState

namespace ScanRun

def upTo (g : ProgramGraph) : Nat → ScanState → ScanRun
  | 0, s => ⟨[], s⟩
  | n + 1, s =>
    let wave := s.nextWave g
    if wave = [] then ⟨[], s.enter []⟩
    else
      let rest := ScanRun.upTo g n (s.importWave g wave)
      ⟨wave :: rest.waves, rest.final⟩

def start (g : ProgramGraph) : ScanState := { discovered := OrderedSet.ofList g.roots }

/-- Every wave but the last reaches a new name, so there is one wave more than names at most. -/
def of (g : ProgramGraph) : ScanRun := ScanRun.upTo g (g.names.length + 1) (start g)

def imports (r : ScanRun) : List String := r.waves.flatten

end ScanRun

namespace ScanState

def devirtualize (s : ScanState) (g : ProgramGraph) (slot : String) : Option (String × String) :=
  match (OrderedSet.ofList (g.targets s.allocated slot)).toList with
  | [target] => some (slot, target)
  | _ => none

def vtableEntries (s : ScanState) (g : ProgramGraph) (slot : String) : List (String × String) :=
  ((g.implementations slot).filter (fun i => decide (i.type ∈ s.allocated))).map (fun i => (i.type, slot))

def result (s : ScanState) (g : ProgramGraph) : ScanResult where
  reachable := s.reachable
  allocated := s.allocated
  devirtualized := OrderedMap.ofList (s.calledSlots.toList.filterMap (s.devirtualize g))
  vtableLayout := (∅ : OrderedMap String (OrderedSet String)).addAll
    (s.calledSlots.toList.flatMap (s.vtableEntries g))
  dictionaryLayout := s.dictionaryLayout
  deadTypeChecks := s.typeChecks.diff s.allocated
  importFailures := s.failures

end ScanState

def ProgramGraph.scan (g : ProgramGraph) : ScanResult := (ScanRun.of g).final.result g

end NativeBuild
