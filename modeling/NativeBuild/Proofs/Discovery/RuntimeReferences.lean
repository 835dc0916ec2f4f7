import NativeBuild.Discovery
import NativeBuild.Proofs.Files.Search

namespace NativeBuild.Discovery

variable {t : FileTree} {mask : String} {stdlib : StandardLibrary} {known m : OrderedMap String Path}
  {files dirs dirs' more : List Path} {found : Path → List Path} {n : String} {p d : Path}

def fileNamed? (n : String) (files : List Path) : Option Path := files.find? (fun p => p.fileStem? = some n)

structure Served (found : Path → List Path) (dirs : List Path) (n : String) (p : Path) : Prop where
  stem : p.fileStem? = some n
  first : ∃ before dir after earlier later, dirs = before ++ dir :: after ∧ found dir = earlier ++ p :: later ∧
    (∀ q ∈ earlier, q.fileStem? ≠ some n) ∧ ∀ d ∈ before, ∀ q ∈ found d, q.fileStem? ≠ some n

def Single (found : Path → List Path) (dirs : List Path) (n : String) : Prop :=
  ∀ d ∈ dirs, ∀ d' ∈ dirs, ∀ p ∈ found d, ∀ p' ∈ found d', p.fileStem? = some n → p'.fileStem? = some n → d = d'

theorem fileNamed?_eq_some_iff : fileNamed? n files = some p ↔
    p.fileStem? = some n ∧ ∃ earlier later, files = earlier ++ p :: later ∧ ∀ q ∈ earlier, q.fileStem? ≠ some n := by
  simp [fileNamed?, List.find?_eq_some_iff_append]

theorem fileNamed?_eq_none_iff : fileNamed? n files = none ↔ ∀ q ∈ files, q.fileStem? ≠ some n := by
  simp [fileNamed?]

theorem get?_addAssemblies : (addAssemblies known files).get? n =
    (known.get? n).or (if isDiagnosticsAssembly n = true then none else fileNamed? n files) := by
  induction files generalizing known with
  | nil => simp [addAssemblies, fileNamed?]
  | cons q files ih =>
    have hcons : addAssemblies known (q :: files) = addAssemblies (addAssemblies known [q]) files := rfl
    have hone : (addAssemblies known [q]).get? n =
        (known.get? n).or (if isDiagnosticsAssembly n = true then none else fileNamed? n [q]) := by
      rw [addAssemblies, List.foldl_cons, List.foldl_nil]
      cases hstem : q.fileStem? with
      | none => simp [fileNamed?, hstem]
      | some name =>
        by_cases hname : name = n
        · subst hname
          by_cases hdiagnostics : isDiagnosticsAssembly name = true
          · simp [hdiagnostics]
          · simp [hdiagnostics, OrderedMap.get?_insertIfNew, fileNamed?, hstem]
        · by_cases hdiagnostics : isDiagnosticsAssembly name = true
          · simp [hdiagnostics, fileNamed?, hstem, hname]
          · simp [hdiagnostics, OrderedMap.get?_insertIfNew, fileNamed?, hstem, hname]
    rw [hcons, ih, hone, Option.or_assoc]
    congr 1
    split
    · rfl
    · rw [fileNamed?, fileNamed?, fileNamed?, ← List.find?_append, List.singleton_append]

theorem addDirectories_eq_ok (known : OrderedMap String Path) (h : ∀ d ∈ dirs, Glob.filesIn t d mask = .ok (found d)) :
    ∃ m, addDirectories t mask known dirs = .ok m ∧ ∀ n, m.get? n =
      (known.get? n).or (if isDiagnosticsAssembly n = true then none
        else dirs.findSome? (fun d => fileNamed? n (found d))) := by
  induction dirs generalizing known with
  | nil => exact ⟨known, rfl, by simp⟩
  | cons d dirs ih =>
    obtain ⟨hd, hdirs⟩ := List.forall_mem_cons.mp h
    obtain ⟨m, hm, hget⟩ := ih (addAssemblies known (found d)) hdirs
    refine ⟨m, ?_, fun n => ?_⟩
    · rw [addDirectories, hd]
      exact hm
    · rw [hget, get?_addAssemblies, Option.or_assoc]
      congr 1
      split
      · rfl
      · rw [List.findSome?_cons]
        cases fileNamed? n (found d) <;> rfl

theorem served_iff : Served found dirs n p ↔ dirs.findSome? (fun d => fileNamed? n (found d)) = some p := by
  rw [List.findSome?_eq_some_iff]
  constructor
  · rintro ⟨hstem, before, dir, after, earlier, later, hdirs, hfiles, hearlier, hbefore⟩
    refine ⟨before, dir, after, hdirs, fileNamed?_eq_some_iff.mpr ⟨hstem, earlier, later, hfiles, hearlier⟩, ?_⟩
    exact fun d hd => fileNamed?_eq_none_iff.mpr (hbefore d hd)
  · rintro ⟨before, dir, after, hdirs, hfile, hbefore⟩
    obtain ⟨hstem, earlier, later, hfiles, hearlier⟩ := fileNamed?_eq_some_iff.mp hfile
    refine ⟨hstem, before, dir, after, earlier, later, hdirs, hfiles, hearlier, ?_⟩
    exact fun d hd => fileNamed?_eq_none_iff.mp (hbefore d hd)

theorem Served.append (h : Served found dirs n p) (more : List Path) : Served found (dirs ++ more) n p := by
  rw [served_iff] at h ⊢
  rw [List.findSome?_append, h]
  rfl

theorem mem_of_fileNamed? (h : fileNamed? n files = some p) : p ∈ files ∧ p.fileStem? = some n := by
  obtain ⟨hstem, earlier, later, rfl, -⟩ := fileNamed?_eq_some_iff.mp h
  exact ⟨List.mem_append_right _ List.mem_cons_self, hstem⟩

theorem served_iff_of_single (h : Single found dirs n) :
    Served found dirs n p ↔ ∃ d ∈ dirs, fileNamed? n (found d) = some p := by
  rw [served_iff]
  constructor
  · exact fun hp => List.exists_of_findSome?_eq_some hp
  · rintro ⟨d, hd, hp⟩
    cases hfirst : dirs.findSome? (fun d => fileNamed? n (found d)) with
    | none =>
      rw [List.findSome?_eq_none_iff.mp hfirst d hd] at hp
      cases hp
    | some q =>
      obtain ⟨d', hd', hq⟩ := List.exists_of_findSome?_eq_some hfirst
      obtain ⟨hpmem, hpstem⟩ := mem_of_fileNamed? hp
      obtain ⟨hqmem, hqstem⟩ := mem_of_fileNamed? hq
      obtain rfl := h d hd d' hd' p hpmem q hqmem hpstem hqstem
      exact hq.symm.trans hp

theorem served_perm (h : dirs.Perm dirs') (hsingle : Single found dirs n) :
    Served found dirs' n p ↔ Served found dirs n p := by
  have hsingle' : Single found dirs' n :=
    fun d hd d' hd' => hsingle d (h.mem_iff.mpr hd) d' (h.mem_iff.mpr hd')
  simp only [served_iff_of_single hsingle, served_iff_of_single hsingle', h.mem_iff]

def Searched (t : FileTree) (stdlib : StandardLibrary) (found : Path → List Path) (dirs : List Path) : Prop :=
  ∀ mask ∈ runtimeMask stdlib, ∀ d ∈ dirs, Glob.filesIn t d mask = .ok (found d)

theorem isDiagnosticsAssembly_iff : isDiagnosticsAssembly n = true ↔ "System.Diagnostics".toList <+: n.toList :=
  List.isPrefixOf_iff_prefix

theorem runtimeReferences_eq_ok (hstdlib : stdlib ≠ .none) (h : Searched t stdlib found dirs) :
    ∃ m, runtimeReferences t dirs stdlib = .ok m ∧ ∀ n p, m.get? n = some p ↔
      ¬ "System.Diagnostics".toList <+: n.toList ∧ Served found dirs n p := by
  obtain ⟨mask, hmask⟩ : ∃ mask, runtimeMask stdlib = some mask := by
    cases stdlib with
    | none => exact absurd rfl hstdlib
    | dotnet => exact ⟨_, rfl⟩
    | zero => exact ⟨_, rfl⟩
  obtain ⟨m, hm, hget⟩ := addDirectories_eq_ok ∅ (h mask hmask)
  refine ⟨m, ?_, fun n p => ?_⟩
  · rw [runtimeReferences, hmask]
    exact hm
  · rw [hget, OrderedMap.get?_empty, Option.none_or, ← isDiagnosticsAssembly_iff, served_iff]
    split <;> simp_all

structure Precedence (t : FileTree) (stdlib : StandardLibrary) (found : Path → List Path) (dirs : List Path)
    (m : OrderedMap String Path) : Prop where
  served : ∀ n p, m.get? n = some p ↔ ¬ "System.Diagnostics".toList <+: n.toList ∧ Served found dirs n p
  appended : ∀ more, Searched t stdlib found more → ∃ m', runtimeReferences t (dirs ++ more) stdlib = .ok m' ∧
    ∀ n p, m.get? n = some p → m'.get? n = some p
  reordered : ∀ dirs', dirs.Perm dirs' → ∃ m', runtimeReferences t dirs' stdlib = .ok m' ∧
    ∀ n, Single found dirs n → m'.get? n = m.get? n

theorem runtimeReferences_precedence (hstdlib : stdlib ≠ .none) (h : Searched t stdlib found dirs) :
    ∃ m, runtimeReferences t dirs stdlib = .ok m ∧ Precedence t stdlib found dirs m := by
  obtain ⟨m, hm, hserved⟩ := runtimeReferences_eq_ok hstdlib h
  refine ⟨m, hm, hserved, fun more hmore => ?_, fun dirs' hperm => ?_⟩
  · have hall : Searched t stdlib found (dirs ++ more) := fun mask hmask =>
      List.forall_mem_append.mpr ⟨h mask hmask, hmore mask hmask⟩
    obtain ⟨m', hm', hserved'⟩ := runtimeReferences_eq_ok hstdlib hall
    refine ⟨m', hm', fun n p hp => ?_⟩
    obtain ⟨hplain, hp⟩ := (hserved n p).mp hp
    exact (hserved' n p).mpr ⟨hplain, hp.append more⟩
  · have hall : Searched t stdlib found dirs' := fun mask hmask d hd => h mask hmask d (hperm.mem_iff.mpr hd)
    obtain ⟨m', hm', hserved'⟩ := runtimeReferences_eq_ok hstdlib hall
    refine ⟨m', hm', fun n hsingle => Option.ext fun p => ?_⟩
    rw [hserved', hserved, served_perm hperm hsingle]

def layered : FileTree :=
  let put (t : FileTree) (place : Place) : FileTree := t.set place (.file [] false)
  let directories := (FileTree.empty.set ["lib"] .directory).set ["lib", "x64"] .directory
  put (put (put directories ["lib", "x64", "Core.dll"]) ["lib", "Core.dll"]) ["lib", "System.Diagnostics.Tracing.dll"]

def layeredAssemblies (d : Path) : List Path :=
  if d = ⟨"/lib/x64"⟩ then [⟨"/lib/x64/Core.dll"⟩] else [⟨"/lib/Core.dll"⟩, ⟨"/lib/System.Diagnostics.Tracing.dll"⟩]

theorem layered_runtimeReferences_precedence : ∃ m,
    runtimeReferences layered [⟨"/lib/x64"⟩, ⟨"/lib"⟩] .dotnet = .ok m ∧
      m.get? "Core" = some ⟨"/lib/x64/Core.dll"⟩ ∧ m.get? "System.Diagnostics.Tracing" = none := by
  have hsearched : Searched layered .dotnet layeredAssemblies [⟨"/lib/x64"⟩, ⟨"/lib"⟩] := by
    intro mask hmask
    obtain rfl := Option.some.inj hmask
    refine List.forall_mem_cons.mpr ⟨?_, List.forall_mem_singleton.mpr ?_⟩
    · exact Glob.filesIn_of_sorted (m := .endsIn ".dll") (by decide +kernel) (by decide) (by decide +kernel) (by decide)
    · exact Glob.filesIn_of_sorted (m := .endsIn ".dll") (by decide +kernel) (by decide) (by decide +kernel) (by decide +kernel)
  obtain ⟨m, hm, hprecedence⟩ := runtimeReferences_precedence (by decide) hsearched
  refine ⟨m, hm, (hprecedence.served _ _).mpr ⟨by decide, ?_⟩, ?_⟩
  · exact ⟨by decide, [], _, _, [], [], rfl, rfl, List.forall_mem_nil _, List.forall_mem_nil _⟩
  · rw [Option.eq_none_iff_forall_not_mem]
    intro p hp
    exact absurd ((hprecedence.served _ _).mp hp).1 (by decide)

end NativeBuild.Discovery
