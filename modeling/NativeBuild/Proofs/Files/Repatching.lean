import NativeBuild.Proofs.Files.Patching

namespace NativeBuild.Patch

open FileTree

inductive Clears : Node → Node → Prop
  | intro {bytes : List UInt8} {b : UInt8} (executable : Bool) (there : bytes[0x30]? = some b) (flag : b = 4 ∨ b = 5) :
      Clears (.file bytes executable) (.file (bytes.set 0x30 0) executable)

variable {t : FileTree} {p : Path} {ps qs front rest : List Path} {place : Place} {bytes : List UInt8} {node : Node}

theorem isPatchable_iff {b : UInt8} : isPatchable b = true ↔ b = 4 ∨ b = 5 := by simp [isPatchable]

theorem clears_settled (h : node.settled ≠ node) : Clears node node.settled := by
  cases node with
  | directory => exact absurd rfl h
  | file bytes executable =>
    by_cases hex : ∃ b, bytes[flagOffset]? = some b ∧ isPatchable b = true
    · obtain ⟨b, hb, hflag⟩ := hex
      rw [Node.settled, settled_of_patchable hb hflag]
      exact .intro executable hb (isPatchable_iff.mp hflag)
    · apply absurd _ h
      rw [Node.settled, settled_of_not_patchable]
      intro b hb
      by_contra hflag
      exact hex ⟨b, hb, by simpa using hflag⟩

theorem node?_eq_or_clears (t : FileTree) (ps : List Path) (place : Place) :
    (applyAll t ps).2.node? place = t.node? place ∨
      place ∈ (ps.takeWhile t.isFile).map (·.placeFrom t.workingDirectory) ∧ ∃ before after,
        t.node? place = some before ∧ (applyAll t ps).2.node? place = some after ∧ Clears before after := by
  rw [node?_applyAll]
  split
  · next hmem =>
    cases hnode : t.node? place with
    | none => exact .inl rfl
    | some before =>
      by_cases hsame : before.settled = before
      · exact .inl (congrArg some hsame)
      · exact .inr ⟨hmem, before, before.settled, rfl, rfl, clears_settled hsame⟩
  · exact .inl rfl

theorem settled_eq_self_iff : settled bytes = bytes ↔ patched? bytes = none := by
  constructor
  · intro h
    rw [patched?]
    split
    · next b hb =>
      rw [← h] at hb
      simp [settled_not_patchable hb]
    · rfl
  · intro h
    rw [settled, h]
    rfl

theorem read_apply {executable : Bool} (h : t.lookup p = .ok (.file bytes executable)) :
    (apply t p).2.read p = .ok (settled bytes) := by
  obtain ⟨-, place, hplace, hnode⟩ := lookup_eq_file_iff.mp h
  have hsettled : (apply t p).2.node? (p.placeFrom t.workingDirectory) = some (.file (settled bytes) executable) := by
    rw [(apply_of_file h).2, if_pos rfl, placeFrom_of_locate hplace, hnode]
    rfl
  have halike : Alike (apply t p).2 t := apply_alike
  exact read_eq_ok_iff.mpr ⟨executable,
    lookup_eq_file_of halike.workingDirectory (fun v => halike.directory_iff.mpr) h hsettled⟩

theorem apply_eq_true_iff : (apply t p).1 = .ok true ↔ (apply t p).2.read p ≠ t.read p := by
  cases h : t.isFile p with
  | false =>
    obtain ⟨e, happly, -⟩ := apply_of_not_isFile h
    simp [happly]
  | true =>
    obtain ⟨bytes, executable, hlookup⟩ := isFile_iff_lookup.mp h
    obtain ⟨-, place, hplace, -⟩ := lookup_eq_file_iff.mp hlookup
    have hbefore : t.read p = .ok bytes := read_eq_ok_iff.mpr ⟨executable, hlookup⟩
    have hresult : (apply t p).1 = .ok true ↔ patched? bytes ≠ none := by
      cases hnew : patched? bytes with
      | none => simp [apply, hlookup, hplace, hnew]
      | some new => simp [apply, hlookup, hplace, hnew]
    rw [hresult, read_apply hlookup, hbefore, ne_eq, ne_eq, Except.ok.injEq, settled_eq_self_iff]

theorem applyAll_append (h : ∀ p ∈ front, t.isFile p = true) :
    applyAll t (front ++ rest) = applyAll (applyAll t front).2 rest := by
  induction front generalizing t with
  | nil => rfl
  | cons p front ih =>
    obtain ⟨hp, hfront⟩ := List.forall_mem_cons.mp h
    rw [List.cons_append, applyAll_cons_of_isFile hp, applyAll_cons_of_isFile hp]
    apply ih
    simpa only [apply_alike.isFile] using hfront

theorem applyAll_applyAll : applyAll (applyAll t ps).2 ps = applyAll t ps := by
  have halike : Alike (applyAll t ps).2 t := applyAll_alike
  have hfiles : (applyAll t ps).2.isFile = t.isFile := funext halike.isFile
  apply Prod.ext (applyAll_fst_congr halike)
  apply ext_node? (applyAll_alike.workingDirectory.trans rfl)
  intro place
  rw [node?_applyAll, hfiles, halike.workingDirectory, node?_applyAll]
  split
  · rw [Option.map_map]
    congr 1
    exact funext Node.settled_settled
  · rfl

theorem applyAll_of_mem_iff (h : (applyAll t ps).1 = .ok ()) (hmem : ∀ p, p ∈ qs ↔ p ∈ ps) :
    applyAll t qs = applyAll t ps := by
  have hall : ∀ p ∈ ps, t.isFile p = true := applyAll_eq_ok_iff.mp h
  have hall' : ∀ p ∈ qs, t.isFile p = true := fun p hp => hall p ((hmem p).mp hp)
  apply Prod.ext
  · rw [h, applyAll_eq_ok_iff.mpr hall']
  · apply ext_node? (applyAll_alike.workingDirectory.trans applyAll_alike.workingDirectory.symm)
    intro place
    rw [node?_applyAll, node?_applyAll, List.takeWhile_eq_self_iff.mpr hall, List.takeWhile_eq_self_iff.mpr hall']
    simp only [List.mem_map, hmem]

structure Settles (t : FileTree) (ps : List Path) : Prop where
  changed : ∀ place, (applyAll t ps).2.node? place ≠ t.node? place →
    place ∈ (ps.takeWhile t.isFile).map (·.placeFrom t.workingDirectory) ∧ ∃ before after,
      t.node? place = some before ∧ (applyAll t ps).2.node? place = some after ∧ Clears before after
  settled : ∀ p ∈ ps.takeWhile t.isFile, ∃ bytes, (applyAll t ps).2.read p = .ok bytes ∧
    ∀ b, bytes[0x30]? = some b → b ≠ 4 ∧ b ≠ 5
  told : ∀ front p rest, ps = front ++ p :: rest → ((apply (applyAll t front).2 p).1 = .ok true ↔
    (apply (applyAll t front).2 p).2.read p ≠ (applyAll t front).2.read p)
  goesThrough : (∀ p ∈ ps, t.isFile p = true) → (applyAll t ps).1 = .ok ()
  stops : ∀ front p rest, ps = front ++ p :: rest → (∀ q ∈ front, t.isFile q = true) → t.isFile p = false →
    ∃ e, applyAll t ps = (.error ⟨"failed to open " ++ p.text ++ " for patching", e⟩, (applyAll t front).2)
  again : applyAll (applyAll t ps).2 ps = applyAll t ps
  anyOrder : (applyAll t ps).1 = .ok () → ∀ qs, (∀ p, p ∈ qs ↔ p ∈ ps) → applyAll t qs = applyAll t ps

theorem applyAll_settles (t : FileTree) (ps : List Path) : Settles t ps := by
  constructor
  case changed => exact fun place h => (node?_eq_or_clears t ps place).resolve_left h
  case settled =>
    intro p hp
    obtain ⟨bytes, hread⟩ := read_applyAll_of_mem_takeWhile hp
    refine ⟨_, hread, fun b hb => not_or.mp fun hflag => ?_⟩
    have hpatchable : isPatchable b = true := isPatchable_iff.mpr hflag
    rw [settled_not_patchable hb] at hpatchable
    cases hpatchable
  case told => exact fun front p rest _ => apply_eq_true_iff
  case goesThrough => exact applyAll_eq_ok_iff.mpr
  case stops =>
    intro front p rest hps hfront hp
    have halike : Alike (applyAll t front).2 t := applyAll_alike
    obtain ⟨e, happly, -⟩ := apply_of_not_isFile ((halike.isFile p).trans hp)
    refine ⟨e, ?_⟩
    rw [hps, applyAll_append hfront, applyAll, happly]
  case again => exact applyAll_applyAll
  case anyOrder => exact fun h qs => applyAll_of_mem_iff h

example :
    let zeros (n : Nat) : List UInt8 := List.replicate n 0
    let t := (FileTree.empty.set ["a.o"] (.file (zeros 0x30 ++ [5]) false)).set ["b.o"] (.file (zeros 0x30) false)
    let after := (applyAll t [⟨"/a.o"⟩, ⟨"/b.o"⟩, ⟨"/a.o"⟩]).2
    after.read ⟨"/a.o"⟩ = .ok (zeros 0x31) ∧ after.read ⟨"/b.o"⟩ = .ok (zeros 0x30) := by decide +kernel

end NativeBuild.Patch
