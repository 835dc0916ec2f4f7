import NativeBuild.Proofs.Build.Keeping
import NativeBuild.Proofs.Files.Outside
import Mathlib.Logic.Relation

/-!
Helpers that follow a routine: what they answer, and what they have in the working directory of a build,
comes from what was done in this build so far and from nothing else. Such a build comes to the same as one
that goes by the routine itself and has no working directory.
-/

namespace NativeBuild

inductive Act where
  | compiled
  | loaded
  | generated (scanned : Bool)
  | ran (command : Command)

def Deed.act? : Deed → Option Act
  | .compiled _ => some .compiled
  | .reported _ => none
  | .loaded _ => some .loaded
  | .generated _ scanned => some (.generated scanned)
  | .ran command _ => some (.ran command)

def Act.command? : Act → Option Command
  | .ran command => some command
  | _ => none

def Trace.acts (t : Trace) : List Act := t.filterMap (·.deed.act?)

theorem Trace.commands_eq_acts (t : Trace) : t.commands = t.acts.filterMap Act.command? := by
  rw [commands, acts, List.filterMap_filterMap]
  congr 1
  funext e
  cases e.deed <;> rfl

theorem Trace.acts_append (t t' : Trace) : acts (t ++ t') = t.acts ++ t'.acts := List.filterMap_append

theorem Bench.acts_note_reported (b : Bench) (diagnostics : List Diagnostic) :
    (b.note (.reported diagnostics)).trace.acts = b.trace.acts := by
  rw [note, Trace.acts_append]
  exact List.append_nil _

/-- What helpers answer after what was asked of them, and what is then in the working directory, by places
below it. -/
structure Routine where
  compile : Except FrontEndFailure (List Diagnostic)
  load : List Act → Except String ProgramGraph
  generate : List Act → ProgramGraph → Option ScanResult → Except CodegenFailure (List String)
  object : List UInt8
  unwritten : FileError → Option CodegenFailure
  execute : List Act → Command → Except String Int
  inside : List Act → Place → Option Node

namespace Routine

def store (routine : Routine) (c : BuildContext) (t : FileTree) :
    Except CodegenFailure (List String) → Except CodegenFailure CodegenOutput × FileTree
  | .error e => (.error e, t)
  | .ok symbols =>
    match t.write c.paths.object routine.object with
    | (.ok (), t) => (.ok ⟨c.paths.object, symbols⟩, t)
    | (.error e, t) =>
      match routine.unwritten e with
      | some failure => (.error failure, t)
      | none => (.ok ⟨c.paths.object, symbols⟩, t)

def generated (routine : Routine) (c : BuildContext) (acts : List Act) (program : ProgramGraph)
    (scan : Option ScanResult) (t : FileTree) : Except CodegenFailure CodegenOutput × FileTree :=
  routine.store c t (routine.generate acts program scan)

theorem snd_store (routine : Routine) (c : BuildContext) (t : FileTree) (answer : Except CodegenFailure (List String)) :
    (routine.store c t answer).2 = t ∨ (routine.store c t answer).2 = (t.write c.paths.object routine.object).2 := by
  cases answer with
  | error e => exact .inl rfl
  | ok symbols =>
    right
    rw [store]
    obtain ⟨written, t'⟩ := t.write c.paths.object routine.object
    cases written with
    | ok _ => rfl
    | error e => cases h : routine.unwritten e <;> simp [h]

theorem object_of_store (routine : Routine) {c : BuildContext} {t : FileTree}
    {answer : Except CodegenFailure (List String)} {output : CodegenOutput}
    (h : (routine.store c t answer).1 = .ok output) : output.object = c.paths.object := by
  cases answer with
  | error e => cases h
  | ok symbols =>
    rw [store] at h
    split at h
    · rw [← Except.ok.inj h]
    · split at h
      · cases h
      · rw [← Except.ok.inj h]

def workshop (routine : Routine) (c : BuildContext) : Workshop where
  compile _ files request := ⟨routine.compile.map (⟨request.output, ·⟩), files, {}⟩
  load trace files _ := ⟨routine.load trace.acts, files, {}⟩
  generate trace files _ program scan :=
    ⟨(routine.generated c trace.acts program scan files).1, (routine.generated c trace.acts program scan files).2, {}⟩
  execute trace files command := ⟨routine.execute trace.acts command, files, {}⟩

end Routine

namespace Build

open FileTree

def ownPaths (c : BuildContext) : List Path := ownFiles c ++ (c.paths.exports.map roomFor).getD []

inductive OwnStep (c : BuildContext) (bytes : List UInt8) (t : FileTree) : FileTree → Prop where
  | object : OwnStep c bytes t (t.write c.paths.object bytes).2
  | exports {p : Path} (listed : c.paths.exports = some p) (text : String) : OwnStep c bytes t (t.writeText p text).2
  | patch : OwnStep c bytes t (Patch.applyAll t c.patchTargets).2
  | remove {p : Path} (own : p ∈ intermediates c) : OwnStep c bytes t (t.removeQuietly p)

/-- Files outside the working directory as the build can have made them, and in it what the routine says. -/
structure Directed (c : BuildContext) (routine : Routine) (d : Place) (files : FileTree) (acts : List Act)
    (t u : FileTree) : Prop where
  reached : Relation.ReflTransGen (OwnStep c routine.object) files u
  outside : SameOutside d t u
  inside : ∀ r, t.node? (d ++ r) = routine.inside acts r

/-- Helpers follow a routine in builds that begin with some files and in others that the build can have made
of them: they answer what the routine says, and outside the working directory, which is apart from the files
of the build, they change nothing but the object. -/
structure Follows (c : BuildContext) (w : Workshop) (routine : Routine) (dir : Path) (files : FileTree) : Prop where
  fresh : ∀ r, routine.inside [] r = if r = [] then some .directory else none
  apart : ∀ p ∈ ownPaths c, p.Outside files.workingDirectory (dir.placeFrom files.workingDirectory)
  compile : ∀ trace t u,
    Directed c routine (dir.placeFrom files.workingDirectory) files trace.acts t u →
      let reply := w.compile trace t (c.frontEndRequest (dir.child c.ilName))
      reply.result.map (·.warnings) = routine.compile ∧
        Directed c routine (dir.placeFrom files.workingDirectory) files (trace.acts ++ [.compiled]) reply.files u
  load : ∀ trace t u il,
    Directed c routine (dir.placeFrom files.workingDirectory) files trace.acts t u →
      let reply := w.load trace t (c.codegenRequest il)
      reply.result = routine.load trace.acts ∧
        Directed c routine (dir.placeFrom files.workingDirectory) files (trace.acts ++ [.loaded]) reply.files u
  generate : ∀ trace t u il program scan,
    Directed c routine (dir.placeFrom files.workingDirectory) files trace.acts t u →
      let reply := w.generate trace t (c.codegenRequest il) program scan
      reply.result = (routine.generated c trace.acts program scan u).1 ∧
        Directed c routine (dir.placeFrom files.workingDirectory) files
          (trace.acts ++ [.generated scan.isSome]) reply.files (routine.generated c trace.acts program scan u).2
  execute : ∀ trace t u, ∀ command ∈ c.commands,
    Directed c routine (dir.placeFrom files.workingDirectory) files trace.acts t u →
      let reply := w.execute trace t command
      reply.result = routine.execute trace.acts command ∧
        Directed c routine (dir.placeFrom files.workingDirectory) files (trace.acts ++ [.ran command])
          reply.files u

variable {c : BuildContext} {w : Workshop} {routine : Routine} {dir dir' : Path} {d : Place} {files t u : FileTree}
  {acts : List Act} {a a' : Artifacts} {b b' : Bench} {stages : List Stage}

theorem workingDirectory_reached (h : Relation.ReflTransGen (OwnStep c routine.object) files u) :
    u.workingDirectory = files.workingDirectory := by
  induction h with
  | refl => rfl
  | tail _ hstep ih =>
    rw [← ih]
    cases hstep with
    | object => exact workingDirectory_write
    | exports _ text => exact workingDirectory_writeText
    | patch => exact Patch.applyAll_alike.workingDirectory
    | remove _ => exact workingDirectory_removeQuietly

theorem directory_reached (h : Relation.ReflTransGen (OwnStep c routine.object) files u) {v : Place}
    (hv : files.node? v = some .directory) : u.node? v = some .directory := by
  induction h with
  | refl => exact hv
  | tail _ hstep ih =>
    cases hstep with
    | object => exact directory_write ih
    | exports _ text => exact directory_writeText ih
    | patch => exact Patch.applyAll_alike.directory_iff.mpr ih
    | remove _ => exact directory_removeQuietly.mpr ih

theorem node?_reached_below (hapart : ∀ p ∈ ownPaths c, p.Outside files.workingDirectory d)
    (h : Relation.ReflTransGen (OwnStep c routine.object) files u) {v : Place} (hv : d <+: v) :
    u.node? v = files.node? v := by
  have hown {p : Path} (hp : p ∈ ownFiles c) : p ∈ ownPaths c := List.mem_append_left _ hp
  have hroom {p q : Path} (hexports : c.paths.exports = some p) (hq : q ∈ roomFor p) : q ∈ ownPaths c := by
    refine List.mem_append_right _ ?_
    rw [hexports]
    exact hq
  induction h with
  | refl => rfl
  | tail hbefore hstep ih =>
    rw [← workingDirectory_reached hbefore] at hapart
    rw [← ih]
    cases hstep with
    | object => exact node?_write_below (hapart _ (hown (List.mem_append_left _ object_mem))) hv
    | exports listed text =>
      exact node?_writeText_below (hapart _ (hown (List.mem_append_left _ (exports_mem listed))))
        (fun q hq => hapart q (hroom listed hq)) text hv
    | patch => exact node?_applyAll_below (fun p hp => hapart p (hown (patchTargets_subset c hp))) hv
    | remove own => exact node?_removeQuietly_below (hapart _ (hown (List.mem_append_left _ own))) hv

namespace Directed

variable (h : Directed c routine d files acts t u)

include h

theorem workingDirectory : t.workingDirectory = files.workingDirectory :=
  h.outside.workingDirectory.trans (workingDirectory_reached h.reached)

theorem apart_own (hapart : ∀ p ∈ ownPaths c, p.Outside files.workingDirectory d) {p : Path} (hp : p ∈ ownPaths c) :
    p.Outside t.workingDirectory d ∧ p.Outside u.workingDirectory d := by
  rw [h.workingDirectory, workingDirectory_reached h.reached]
  exact ⟨hapart p hp, hapart p hp⟩

theorem removeQuietly (hapart : ∀ p ∈ ownPaths c, p.Outside files.workingDirectory d) {p : Path}
    (hp : p ∈ intermediates c) : Directed c routine d files acts (t.removeQuietly p) (u.removeQuietly p) := by
  have hown : p ∈ ownPaths c := List.mem_append_left _ (List.mem_append_left _ hp)
  obtain ⟨ht, hu⟩ := h.apart_own hapart hown
  constructor
  case reached => exact h.reached.tail (.remove hp)
  case outside => exact h.outside.removeQuietly hu
  case inside => exact fun r => (node?_removeQuietly_below ht (List.prefix_append d r)).trans (h.inside r)

theorem applyAll (hapart : ∀ p ∈ ownPaths c, p.Outside files.workingDirectory d) :
    SameResult (Directed c routine d files acts) (Patch.applyAll t c.patchTargets)
      (Patch.applyAll u c.patchTargets) := by
  have houtside (p : Path) (hp : p ∈ c.patchTargets) :=
    h.apart_own hapart (List.mem_append_left _ (patchTargets_subset c hp))
  have hsame := h.outside.applyAll (fun p hp => (houtside p hp).2)
  refine ⟨hsame.result, ?_⟩
  constructor
  case reached => exact h.reached.tail .patch
  case outside => exact hsame.files
  case inside =>
    exact fun r => (node?_applyAll_below (fun p hp => (houtside p hp).1) (List.prefix_append d r)).trans (h.inside r)

theorem writeText (hapart : ∀ p ∈ ownPaths c, p.Outside files.workingDirectory d) {p : Path}
    (hexports : c.paths.exports = some p) (text : String) :
    SameResult (Directed c routine d files acts) (t.writeText p text) (u.writeText p text) := by
  have hp : p.Outside files.workingDirectory d :=
    hapart p (List.mem_append_left _ (List.mem_append_left _ (exports_mem hexports)))
  have hroom (q : Path) (hq : q ∈ roomFor p) : q.Outside files.workingDirectory d := by
    refine hapart q (List.mem_append_right _ ?_)
    rw [hexports]
    exact hq
  have hsame := (SameOutside.congruence d files.workingDirectory).writeText
    ⟨h.outside, workingDirectory_reached h.reached⟩ hp hroom text
  refine ⟨hsame.result, ?_⟩
  constructor
  case reached => exact h.reached.tail (.exports hexports text)
  case outside => exact hsame.files.1
  case inside =>
    intro r
    rw [← h.workingDirectory] at hp hroom
    exact (node?_writeText_below hp hroom text (List.prefix_append d r)).trans (h.inside r)

theorem store (hapart : ∀ p ∈ ownPaths c, p.Outside files.workingDirectory d)
    (answer : Except CodegenFailure (List String)) :
    SameResult (Directed c routine d files acts) (routine.store c t answer) (routine.store c u answer) := by
  obtain ⟨ht, hu⟩ := h.apart_own hapart (List.mem_append_left _ (List.mem_append_left _ object_mem))
  have hwritten : SameResult (Directed c routine d files acts) (t.write c.paths.object routine.object)
      (u.write c.paths.object routine.object) := by
    have hsame := h.outside.write hu routine.object
    refine ⟨hsame.result, ?_⟩
    constructor
    case reached => exact h.reached.tail .object
    case outside => exact hsame.files
    case inside => exact fun r => (node?_write_below ht (List.prefix_append d r)).trans (h.inside r)
  cases answer with
  | error e => exact ⟨rfl, h⟩
  | ok symbols =>
    rw [Routine.store, Routine.store]
    revert hwritten
    obtain ⟨written, t'⟩ := t.write c.paths.object routine.object
    obtain ⟨written', u'⟩ := u.write c.paths.object routine.object
    rintro ⟨rfl : written = written', hdirected⟩
    cases written with
    | ok _ => exact ⟨rfl, hdirected⟩
    | error e => cases hminds : routine.unwritten e <;> simpa [hminds] using ⟨rfl, hdirected⟩

end Directed

theorem workshop_follows (c : BuildContext) (routine : Routine)
    (hempty : ∀ acts r, routine.inside acts r = if r = [] then some .directory else none)
    (hapart : ∀ p ∈ ownPaths c, p.Outside files.workingDirectory (dir.placeFrom files.workingDirectory)) :
    Follows c (routine.workshop c) routine dir files := by
  have hlater {d : Place} {acts acts' : List Act} {t u : FileTree} (h : Directed c routine d files acts t u) :
      Directed c routine d files acts' t u :=
    ⟨h.reached, h.outside, fun r => (h.inside r).trans ((hempty acts r).trans (hempty acts' r).symm)⟩
  constructor
  case fresh => exact hempty []
  case apart => exact hapart
  case compile =>
    refine fun trace t u h => ⟨?_, hlater h⟩
    rw [Routine.workshop]
    cases routine.compile <;> rfl
  case load => exact fun trace t u il h => ⟨rfl, hlater h⟩
  case generate =>
    intro trace t u il program scan h
    have hstored := h.store hapart (routine.generate trace.acts program scan)
    exact ⟨hstored.result, hlater hstored.files⟩
  case execute => exact fun trace t u command _ h => ⟨rfl, hlater h⟩

structure Mirrored (c : BuildContext) (routine : Routine) (d : Place) (files : FileTree) (b b' : Bench) : Prop where
  acts : b.trace.acts = b'.trace.acts
  directed : Directed c routine d files b.trace.acts b.files b'.files

structure SameArtifacts (c : BuildContext) (a a' : Artifacts) : Prop where
  il : a.il.isSome = a'.il.isSome
  program : a.program = a'.program
  scan : a.scan = a'.scan
  output : a.output = a'.output
  object : ∀ output, a.output = some output → output.object = c.paths.object

inductive SameStage (c : BuildContext) (routine : Routine) (d : Place) (files : FileTree) :
    StageResult → StageResult → Prop where
  | passed {a a' : Artifacts} {b b' : Bench} (artifacts : SameArtifacts c a a')
      (bench : Mirrored c routine d files b b') : SameStage c routine d files (.ok a, b) (.ok a', b')
  | failed {e : StageFailure} {b b' : Bench} (bench : Mirrored c routine d files b b') :
      SameStage c routine d files (.error e, b) (.error e, b')

namespace Mirrored

theorem after {α β : Type} {deed deed' : Deed} {act : Act} {r : Reply α} {r' : Reply β}
    (hb : Mirrored c routine d files b b') (hact : deed.act? = some act) (hact' : deed'.act? = some act)
    (h : Directed c routine d files (b.trace.acts ++ [act]) r.files r'.files) :
    Mirrored c routine d files (b.after deed r) (b'.after deed' r') := by
  have hacts {b : Bench} {deed : Deed} {γ : Type} {r : Reply γ} (hact : deed.act? = some act) :
      (b.after deed r).trace.acts = b.trace.acts ++ [act] := by
    rw [Bench.after, Trace.acts_append]
    simp [Trace.acts, hact]
  constructor
  case acts => rw [hacts hact, hacts hact', hb.acts]
  case directed =>
    rw [hacts hact]
    exact h

theorem note (hb : Mirrored c routine d files b b') (diagnostics diagnostics' : List Diagnostic) :
    Mirrored c routine d files (b.note (.reported diagnostics)) (b'.note (.reported diagnostics')) := by
  constructor
  case acts => rw [Bench.acts_note_reported, Bench.acts_note_reported, hb.acts]
  case directed =>
    rw [Bench.acts_note_reported]
    exact hb.directed

variable (h : Follows c w routine dir files)
  (hb : Mirrored c routine (dir.placeFrom files.workingDirectory) files b b')

include h hb

theorem compile (request : FrontEndRequest) :
    (b.compile w (c.frontEndRequest (dir.child c.ilName))).1.map (·.warnings) = routine.compile ∧
      Mirrored c routine (dir.placeFrom files.workingDirectory) files
        (b.compile w (c.frontEndRequest (dir.child c.ilName))).2 (b'.compile (routine.workshop c) request).2 := by
  obtain ⟨hresult, hdirected⟩ := h.compile b.trace b.files b'.files hb.directed
  exact ⟨hresult, hb.after rfl rfl hdirected⟩

theorem load (il : Path) (request : CodegenRequest) :
    (b.load w (c.codegenRequest il)).1 = (b'.load (routine.workshop c) request).1 ∧
      Mirrored c routine (dir.placeFrom files.workingDirectory) files (b.load w (c.codegenRequest il)).2
        (b'.load (routine.workshop c) request).2 := by
  obtain ⟨hresult, hdirected⟩ := h.load b.trace b.files b'.files il hb.directed
  refine ⟨?_, hb.after rfl rfl hdirected⟩
  rw [hb.acts] at hresult
  exact hresult

theorem generate (il : Path) (request : CodegenRequest) (program : ProgramGraph) (scan : Option ScanResult) :
    (b.generate w (c.codegenRequest il) program scan).1 =
        (b'.generate (routine.workshop c) request program scan).1 ∧
      Mirrored c routine (dir.placeFrom files.workingDirectory) files
        (b.generate w (c.codegenRequest il) program scan).2
        (b'.generate (routine.workshop c) request program scan).2 := by
  obtain ⟨hresult, hdirected⟩ := h.generate b.trace b.files b'.files il program scan hb.directed
  refine ⟨?_, hb.after rfl rfl ?_⟩
  · rw [hb.acts] at hresult
    exact hresult
  · rw [hb.acts] at hdirected ⊢
    exact hdirected

theorem execute {command : Command} (hasked : command ∈ c.commands) :
    (b.execute w command).1 = (b'.execute (routine.workshop c) command).1 ∧
      Mirrored c routine (dir.placeFrom files.workingDirectory) files (b.execute w command).2
        (b'.execute (routine.workshop c) command).2 := by
  obtain ⟨hresult, hdirected⟩ := h.execute b.trace b.files b'.files command hasked hb.directed
  refine ⟨?_, hb.after rfl rfl hdirected⟩
  rw [hb.acts] at hresult
  exact hresult

omit h in
theorem discard (hapart : ∀ p ∈ ownPaths c, p.Outside files.workingDirectory (dir.placeFrom files.workingDirectory))
    {p : Path} (hp : p ∈ intermediates c) :
    Mirrored c routine (dir.placeFrom files.workingDirectory) files (discard c p b) (discard c p b') := by
  constructor
  case acts => rw [discard_trace, discard_trace, hb.acts]
  case directed =>
    rw [discard_trace, Build.discard, Build.discard]
    split
    · exact hb.directed
    · exact hb.directed.removeQuietly hapart hp

end Mirrored

section

variable (h : Follows c w routine dir files) (dir' : Path) (ha : SameArtifacts c a a')
  (hb : Mirrored c routine (dir.placeFrom files.workingDirectory) files b b')

include h ha hb

theorem compileStage_same : SameStage c routine (dir.placeFrom files.workingDirectory) files
    (compileStage c w dir a b) (compileStage c (routine.workshop c) dir' a' b') := by
  have hcall := hb.compile h (c.frontEndRequest (dir'.child c.ilName))
  have hanswer : (b'.compile (routine.workshop c) (c.frontEndRequest (dir'.child c.ilName))).1 =
      routine.compile.map (⟨(c.frontEndRequest (dir'.child c.ilName)).output, ·⟩) := rfl
  rw [compileStage, compileStage]
  revert hcall hanswer
  obtain ⟨result, b₁⟩ := b.compile w (c.frontEndRequest (dir.child c.ilName))
  obtain ⟨result', b₁'⟩ := b'.compile (routine.workshop c) (c.frontEndRequest (dir'.child c.ilName))
  rintro ⟨hresult, hb₁⟩ hanswer
  rw [← hresult] at hanswer
  dsimp only at hanswer
  rw [hanswer]
  cases result with
  | ok il => exact .passed ⟨rfl, ha.program, ha.scan, ha.output, ha.object⟩ (hb₁.note _ _)
  | error failure => exact .failed (hb₁.note _ _)

omit h hb in
theorem requestFor_same :
    (∃ e, requestFor c a = .error e ∧ requestFor c a' = .error e) ∨
      ∃ il il', requestFor c a = .ok (c.codegenRequest il) ∧ requestFor c a' = .ok (c.codegenRequest il') := by
  have hil := ha.il
  rw [requestFor, requestFor]
  cases hsome : a.il with
  | none =>
    rw [hsome] at hil
    rw [Option.isNone_iff_eq_none.mp (Option.isSome_eq_false_iff.mp hil.symm)]
    exact .inl ⟨_, rfl, rfl⟩
  | some il =>
    rw [hsome] at hil
    obtain ⟨il', hsome'⟩ := Option.isSome_iff_exists.mp hil.symm
    rw [hsome']
    exact .inr ⟨_, _, rfl, rfl⟩

theorem scanStage_same : SameStage c routine (dir.placeFrom files.workingDirectory) files
    (scanStage c w a b) (scanStage c (routine.workshop c) a' b') := by
  rw [scanStage, scanStage]
  obtain ⟨e, hrequest, hrequest'⟩ | ⟨il, il', hrequest, hrequest'⟩ := requestFor_same ha
  · rw [hrequest, hrequest']
    exact .failed hb
  · rw [hrequest, hrequest']
    have hcall := hb.load h il (c.codegenRequest il')
    dsimp only
    revert hcall
    obtain ⟨result, b₁⟩ := b.load w (c.codegenRequest il)
    obtain ⟨result', b₁'⟩ := b'.load (routine.workshop c) (c.codegenRequest il')
    rintro ⟨rfl : result = result', hb₁⟩
    cases result with
    | ok program => exact .passed ⟨ha.il, rfl, rfl, ha.output, ha.object⟩ hb₁
    | error e => exact .failed hb₁

theorem programFor_same (il : Path) (request : CodegenRequest) :
    (programFor w (c.codegenRequest il) a b).1 = (programFor (routine.workshop c) request a' b').1 ∧
      Mirrored c routine (dir.placeFrom files.workingDirectory) files (programFor w (c.codegenRequest il) a b).2
        (programFor (routine.workshop c) request a' b').2 := by
  rw [programFor, programFor, ← ha.program]
  cases a.program with
  | some program => exact ⟨rfl, hb⟩
  | none => exact hb.load h il request

theorem codegenStage_same : SameStage c routine (dir.placeFrom files.workingDirectory) files
    (codegenStage c w a b) (codegenStage c (routine.workshop c) a' b') := by
  rw [codegenStage, codegenStage]
  obtain ⟨e, hrequest, hrequest'⟩ | ⟨il, il', hrequest, hrequest'⟩ := requestFor_same ha
  · rw [hrequest, hrequest']
    exact .failed hb
  · rw [hrequest, hrequest', ← ha.scan]
    have hprogram := programFor_same h ha hb il (c.codegenRequest il')
    dsimp only
    revert hprogram
    obtain ⟨result, b₁⟩ := programFor w (c.codegenRequest il) a b
    obtain ⟨result', b₁'⟩ := programFor (routine.workshop c) (c.codegenRequest il') a' b'
    rintro ⟨rfl : result = result', hb₁⟩
    cases result with
    | error e => exact .failed hb₁
    | ok program =>
      have hcall := hb₁.generate h il (c.codegenRequest il') program a.scan
      have hobject (output : CodegenOutput) :
          (b₁'.generate (routine.workshop c) (c.codegenRequest il') program a.scan).1 = .ok output →
            output.object = c.paths.object := routine.object_of_store
      dsimp only
      revert hcall hobject
      obtain ⟨result, b₂⟩ := b₁.generate w (c.codegenRequest il) program a.scan
      obtain ⟨result', b₂'⟩ := b₁'.generate (routine.workshop c) (c.codegenRequest il') program a.scan
      rintro ⟨rfl : result = result', hb₂⟩ hobject
      cases result with
      | error e => exact .failed hb₂
      | ok output =>
        refine .passed ⟨ha.il, rfl, rfl, rfl, ?_⟩ hb₂
        intro output' houtput
        rw [← Option.some.inj houtput]
        exact hobject output rfl

omit h in
theorem emitStage_same
    (hapart : ∀ p ∈ ownPaths c, p.Outside files.workingDirectory (dir.placeFrom files.workingDirectory)) :
    SameStage c routine (dir.placeFrom files.workingDirectory) files (emitStage c a b) (emitStage c a' b') := by
  have hfile : b.files.isFile c.paths.object = b'.files.isFile c.paths.object := by
    have hown : c.paths.object ∈ ownPaths c := List.mem_append_left _ (List.mem_append_left _ object_mem)
    exact hb.directed.outside.isFile (hb.directed.apart_own hapart hown).2
  rw [emitStage, emitStage, ← ha.output]
  cases houtput : a.output with
  | none => exact .failed hb
  | some output =>
    dsimp only
    rw [ha.object output houtput, hfile]
    split
    · cases hexports : c.paths.exports with
      | none => exact .passed ha hb
      | some exports =>
        have hwritten := hb.directed.writeText hapart hexports
          (Exports.render c.profile.os output.exportedSymbols)
        dsimp only
        revert hwritten
        obtain ⟨result, t⟩ := b.files.writeText exports (Exports.render c.profile.os output.exportedSymbols)
        obtain ⟨result', t'⟩ := b'.files.writeText exports (Exports.render c.profile.os output.exportedSymbols)
        rintro ⟨rfl : result = result', hdirected⟩
        cases result with
        | ok _ => exact .passed ha ⟨hb.acts, hdirected⟩
        | error e => exact .failed ⟨hb.acts, hdirected⟩
    · exact .failed hb

omit h in
theorem patchStage_same
    (hapart : ∀ p ∈ ownPaths c, p.Outside files.workingDirectory (dir.placeFrom files.workingDirectory)) :
    SameStage c routine (dir.placeFrom files.workingDirectory) files (patchStage c a b) (patchStage c a' b') := by
  have hpatched := hb.directed.applyAll hapart
  rw [patchStage, patchStage]
  revert hpatched
  obtain ⟨result, t⟩ := Patch.applyAll b.files c.patchTargets
  obtain ⟨result', t'⟩ := Patch.applyAll b'.files c.patchTargets
  rintro ⟨rfl : result = result', hdirected⟩
  cases result with
  | ok _ => exact .passed ha ⟨hb.acts, hdirected⟩
  | error e => exact .failed ⟨hb.acts, hdirected⟩

theorem linkStage_same : SameStage c routine (dir.placeFrom files.workingDirectory) files
    (linkStage c w a b) (linkStage c (routine.workshop c) a' b') := by
  have hcall := hb.execute h (show c.linkCommand ∈ c.commands from List.mem_cons_self)
  rw [linkStage, linkStage]
  revert hcall
  obtain ⟨result, b₁⟩ := b.execute w c.linkCommand
  obtain ⟨result', b₁'⟩ := b'.execute (routine.workshop c) c.linkCommand
  rintro ⟨rfl : result = result', hb₁⟩
  have hdiscarded := hb₁.discard h.apart object_mem
  cases result with
  | error e => exact .failed hdiscarded
  | ok code =>
    dsimp only
    split
    · refine .passed ha ?_
      rw [discardExports, discardExports]
      split
      · next exports hexports => exact hdiscarded.discard h.apart (exports_mem hexports)
      · exact hdiscarded
    · exact .failed hdiscarded

omit ha in
theorem runAll_same {commands : List Command} (hasked : commands ⊆ c.commands) :
    (PostLinkSteps.runAll (Bench.execute w) b commands).1 =
        (PostLinkSteps.runAll (Bench.execute (routine.workshop c)) b' commands).1 ∧
      Mirrored c routine (dir.placeFrom files.workingDirectory) files
        (PostLinkSteps.runAll (Bench.execute w) b commands).2
        (PostLinkSteps.runAll (Bench.execute (routine.workshop c)) b' commands).2 := by
  induction commands generalizing b b' with
  | nil => exact ⟨rfl, hb⟩
  | cons command commands ih =>
    have hcall := hb.execute h (hasked List.mem_cons_self)
    rw [PostLinkSteps.runAll, PostLinkSteps.runAll]
    revert hcall
    obtain ⟨result, b₁⟩ := b.execute w command
    obtain ⟨result', b₁'⟩ := b'.execute (routine.workshop c) command
    rintro ⟨rfl : result = result', hb₁⟩
    cases result with
    | error e => exact ⟨rfl, hb₁⟩
    | ok code =>
      dsimp only
      split
      · exact ih hb₁ (List.subset_of_cons_subset hasked)
      · exact ⟨rfl, hb₁⟩

theorem fixupStage_same : SameStage c routine (dir.placeFrom files.workingDirectory) files
    (fixupStage c w a b) (fixupStage c (routine.workshop c) a' b') := by
  have hsplit : c.postLinkSteps.splitSymbols ⊆ c.commands := fun command hcommand =>
    List.mem_cons_of_mem _ (List.mem_append_right _ hcommand)
  have hsteps : (PostLinkSteps.run (Bench.execute w) b c.postLinkSteps).1 =
        (PostLinkSteps.run (Bench.execute (routine.workshop c)) b' c.postLinkSteps).1 ∧
      Mirrored c routine (dir.placeFrom files.workingDirectory) files
        (PostLinkSteps.run (Bench.execute w) b c.postLinkSteps).2
        (PostLinkSteps.run (Bench.execute (routine.workshop c)) b' c.postLinkSteps).2 := by
    rw [PostLinkSteps.run, PostLinkSteps.run]
    split
    · exact runAll_same h hb hsplit
    · next patch hpatch =>
      have hasked : patch ∈ c.commands :=
        List.mem_cons_of_mem _ (List.mem_append_left _ (Option.mem_toList.mpr hpatch))
      have hcall := hb.execute h hasked
      revert hcall
      obtain ⟨result, b₁⟩ := b.execute w patch
      obtain ⟨result', b₁'⟩ := b'.execute (routine.workshop c) patch
      rintro ⟨rfl : result = result', hb₁⟩
      cases result with
      | error e => exact ⟨rfl, hb₁⟩
      | ok code => exact runAll_same h hb₁ hsplit
  rw [fixupStage, fixupStage]
  revert hsteps
  obtain ⟨result, b₁⟩ := PostLinkSteps.run (Bench.execute w) b c.postLinkSteps
  obtain ⟨result', b₁'⟩ := PostLinkSteps.run (Bench.execute (routine.workshop c)) b' c.postLinkSteps
  rintro ⟨rfl : result = result', hb₁⟩
  cases result with
  | error e => exact .failed hb₁
  | ok failed =>
    cases failed with
    | none => exact .passed ha hb₁
    | some failed => exact .failed hb₁

theorem perform_same (stage : Stage) : SameStage c routine (dir.placeFrom files.workingDirectory) files
    (perform c w dir stage a b) (perform c (routine.workshop c) dir' stage a' b') := by
  cases stage with
  | frontEndCompile => exact compileStage_same h dir' ha hb
  | wholeProgramScan => exact scanStage_same h ha hb
  | codegen => exact codegenStage_same h ha hb
  | objectEmit => exact emitStage_same ha hb h.apart
  | platformPatch => exact patchStage_same ha hb h.apart
  | link => exact linkStage_same h ha hb
  | postLinkFixups => exact fixupStage_same h ha hb

theorem runStages_same (stages : List Stage) :
    (runStages c w dir stages a b).1 = (runStages c (routine.workshop c) dir' stages a' b').1 ∧
      Mirrored c routine (dir.placeFrom files.workingDirectory) files (runStages c w dir stages a b).2
        (runStages c (routine.workshop c) dir' stages a' b').2 := by
  induction stages generalizing a a' b b' with
  | nil => exact ⟨rfl, hb⟩
  | cons stage rest ih =>
    have hstage := perform_same h dir' ha hb stage
    rw [runStages, runStages]
    split
    · revert hstage
      generalize perform c w dir stage a b = x
      generalize perform c (routine.workshop c) dir' stage a' b' = y
      rintro (⟨ha₁, hb₁⟩ | hb₁)
      · obtain ⟨hreport, hlast⟩ := ih ha₁ hb₁
        dsimp only
        rw [hreport]
        exact ⟨rfl, hlast⟩
      · exact ⟨rfl, hb₁.discard h.apart object_mem⟩
    · obtain ⟨hreport, hlast⟩ := ih ha hb
      dsimp only
      rw [hreport]
      exact ⟨rfl, hlast⟩

end

theorem Directed.trans {files' : FileTree} (h : Directed c routine d files' acts t u)
    (hreached : Relation.ReflTransGen (OwnStep c routine.object) files files') :
    Directed c routine d files acts t u := ⟨hreached.trans h.reached, h.outside, h.inside⟩

theorem Follows.of_reached {files' : FileTree} (h : Follows c w routine dir files)
    (hreached : Relation.ReflTransGen (OwnStep c routine.object) files files') :
    Follows c w routine dir files' := by
  have hw := workingDirectory_reached hreached
  constructor
  case fresh => exact h.fresh
  case apart => exact hw ▸ h.apart
  case compile =>
    rw [hw]
    intro trace t u hdirected
    obtain ⟨hresult, hnext⟩ := h.compile trace t u (hdirected.trans hreached)
    exact ⟨hresult, hdirected.reached, hnext.outside, hnext.inside⟩
  case load =>
    rw [hw]
    intro trace t u il hdirected
    obtain ⟨hresult, hnext⟩ := h.load trace t u il (hdirected.trans hreached)
    exact ⟨hresult, hdirected.reached, hnext.outside, hnext.inside⟩
  case generate =>
    rw [hw]
    intro trace t u il program scan hdirected
    obtain ⟨hresult, hnext⟩ := h.generate trace t u il program scan (hdirected.trans hreached)
    refine ⟨hresult, ?_, hnext.outside, hnext.inside⟩
    obtain hsame | hwritten := routine.snd_store c u (routine.generate trace.acts program scan)
    · rw [Routine.generated, hsame]
      exact hdirected.reached
    · rw [Routine.generated, hwritten]
      exact hdirected.reached.tail .object
  case execute =>
    rw [hw]
    intro trace t u command hasked hdirected
    obtain ⟨hresult, hnext⟩ := h.execute trace t u command hasked (hdirected.trans hreached)
    exact ⟨hresult, hdirected.reached, hnext.outside, hnext.inside⟩

theorem opening_mirrored (h : Follows c w routine dir files) (hmade : (files.makeDirectory dir).1 = .ok ()) :
    Mirrored c routine (dir.placeFrom files.workingDirectory) files (opening dir files) ⟨files, []⟩ := by
  obtain ⟨place, hplace, hnone⟩ := makeDirectory_eq_ok_iff.mp hmade
  have hd := placeFrom_of_locate hplace
  refine ⟨rfl, .refl, ⟨workingDirectory_makeDirectory, fun v hv => ?_⟩, fun r => ?_⟩
  · rw [opening, node?_makeDirectory hmade, if_neg]
    rintro rfl
    exact hv List.prefix_rfl
  · rw [opening, node?_makeDirectory hmade]
    show _ = routine.inside [] r
    rw [h.fresh, hd]
    by_cases hr : r = []
    · simp [hr]
    · rw [if_neg (by simpa using hr), if_neg hr, node?_below_of_none hnone]

theorem run_same (h : Follows c w routine dir files) (hmade : (files.makeDirectory dir).1 = .ok ()) (dir' : Path) :
    (run c w dir files).1 = (runStages c (routine.workshop c) dir' Stage.all {} ⟨files, []⟩).1 ∧
      (run c w dir files).2.trace.acts =
        (runStages c (routine.workshop c) dir' Stage.all {} ⟨files, []⟩).2.trace.acts ∧
      (run c w dir files).2.files = (runStages c (routine.workshop c) dir' Stage.all {} ⟨files, []⟩).2.files := by
  have hbegin : SameArtifacts c {} {} := ⟨rfl, rfl, rfl, rfl, nofun⟩
  obtain ⟨hreport, hlast⟩ := runStages_same h dir' hbegin (opening_mirrored h hmade) Stage.all
  rw [run_of_made hmade]
  refine ⟨hreport, hlast.acts, ?_⟩
  have hdirected := hlast.directed
  have hclear := node?_clear_of_made hmade hdirected.workingDirectory (fun v hv hdirectory => by
    rw [hdirected.outside.node? v hv]
    exact directory_reached hdirected.reached hdirectory)
  dsimp only
  refine ext_node? ?_ (fun v => ?_)
  · exact (sameOutside_clear _ dir).workingDirectory.trans hdirected.outside.workingDirectory
  · rw [hclear]
    split
    · next hv => exact (node?_reached_below h.apart hdirected.reached hv).symm
    · next hv => exact hdirected.outside.node? v hv

end Build

end NativeBuild
