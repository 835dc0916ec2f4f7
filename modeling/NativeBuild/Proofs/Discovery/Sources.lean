import NativeBuild.Discovery
import NativeBuild.Proofs.Files.Descent
import NativeBuild.Proofs.Path.Extension

namespace NativeBuild.Discovery

open FileTree

structure SourceName (name : String) : Prop where
  extension : ∃ stem, stem ≠ "" ∧ name = stem ++ ".cs"
  source : ¬ "._".toList <+: name.toList

structure SourceAt (t : FileTree) (base : Place) (names : List String) : Prop where
  file : t.FileAt (base ++ names)
  called : ∃ name, names.getLast? = some name ∧ SourceName name

structure Discovered (t : FileTree) (cwd : Path) (found : List Path) : Prop where
  increasing : found.Pairwise (fun p q => compare p.components q.components = .lt)
  mem_iff : ∀ q, q ∈ found ↔
    ∃ names, SourceAt t (cwd.placeFrom t.workingDirectory) names ∧ q = cwd.extend (names.map .name)
  once : ∀ names, SourceAt t (cwd.placeFrom t.workingDirectory) names →
    found.count (cwd.extend (names.map .name)) = 1
  leads : ∀ names, SourceAt t (cwd.placeFrom t.workingDirectory) names →
    (cwd.extend (names.map .name)).placeFrom t.workingDirectory = cwd.placeFrom t.workingDirectory ++ names

variable {t : FileTree} {cwd q : Path} {name : String} {names : List String} {listing : Place → List String}

theorem sourceName_iff (h : q.fileName? = some name) : SourceName name ↔
    q.extension? = some "cs" ∧ isCompanion (q.fileName?.getD q.text) = false := by
  have hextension : q.extension? = some "cs" ↔ ∃ stem, stem ≠ "" ∧ name = stem ++ ".cs" := by
    have hsplit : q.extension? = some "cs" ↔ (Path.splitName name.toList).2 = some ['c', 's'] := by
      rw [Path.extension?, h, Option.bind_some, Option.map_eq_some_iff]
      constructor
      · rintro ⟨e, he, htext⟩
        rw [he, ← String.toList_ofList (l := e), htext]
        rfl
      · intro he
        exact ⟨_, he, rfl⟩
    rw [hsplit, Path.splitName_eq_some_iff]
    constructor
    · rintro ⟨stem, hne, hname, -⟩
      refine ⟨String.ofList stem, by simpa using hne, String.toList_inj.mp ?_⟩
      simp [hname]
    · rintro ⟨stem, hne, rfl⟩
      exact ⟨stem.toList, by simpa using hne, by simp, by decide⟩
  have hcompanion : isCompanion (q.fileName?.getD q.text) = false ↔ ¬ "._".toList <+: name.toList := by
    rw [h, Option.getD_some, isCompanion, ← List.isPrefixOf_iff_prefix, Bool.not_eq_true]
    rfl
  rw [hextension, hcompanion]
  constructor
  · intro hname
    exact ⟨hname.extension, hname.source⟩
  · intro hboth
    exact ⟨hboth.1, hboth.2⟩

theorem isName_of_fileAt (hnames : t.WellNamed) {base : Place} (h : t.FileAt (base ++ names)) : ∀ n ∈ names, IsName n := by
  obtain ⟨bytes, executable, hnode⟩ := h
  have hthere : t.node? (base ++ names) ≠ none := by simp [hnode]
  exact fun n hn => wellNamed_iff.mp hnames _ hthere n (List.mem_append_right _ hn)

theorem fileName?_extend_names (hnames : ∀ n ∈ names, IsName n) (hlast : names.getLast? = some name) (p : Path) :
    (p.extend (names.map .name)).fileName? = some name := by
  obtain ⟨front, rfl⟩ := List.getLast?_eq_some_iff.mp hlast
  rw [Path.extend_names_concat]
  exact (hnames name (by simp)).fileName?_child _

theorem walkIn_discovered (hnames : t.WellNamed) (hcwd : t.isDirectory cwd = true) (hreadable : t.Readable cwd)
    (hlisting : t.Lists listing) : Discovered t cwd (t.walkIn listing cwd "cs" isCompanion) := by
  have hnofile : t.isFile cwd = false := by
    rw [isFile, lookup_eq_directory_iff.mpr (isDirectory_iff.mp hcwd)]
  have hincreasing : (t.walkIn listing cwd "cs" isCompanion).Pairwise
      (fun p q => compare p.components q.components = .lt) := by
    rw [walkIn, hnofile]
    exact Path.sort_increasing ((filesBelow_apart hnames hlisting _ _).filter _)
  have hmem (q : Path) : q ∈ t.walkIn listing cwd "cs" isCompanion ↔
      ∃ names, SourceAt t (cwd.placeFrom t.workingDirectory) names ∧ q = cwd.extend (names.map .name) := by
    rw [walkIn, hnofile, Path.mem_sort, List.mem_filter, if_neg Bool.false_ne_true,
      mem_filesBelow hnames hlisting hreadable hcwd]
    simp only [Bool.and_eq_true, beq_iff_eq, Bool.not_eq_true']
    constructor
    · rintro ⟨⟨names, hne, -, hfile, rfl⟩, hkept⟩
      obtain ⟨name, hlast⟩ := Option.isSome_iff_exists.mp (List.getLast?_isSome.mpr hne)
      have hfileName := fileName?_extend_names (isName_of_fileAt hnames hfile) hlast cwd
      exact ⟨names, ⟨hfile, name, hlast, (sourceName_iff hfileName).mpr hkept⟩, rfl⟩
    · rintro ⟨names, ⟨hfile, name, hlast, hsource⟩, rfl⟩
      have hfileName := fileName?_extend_names (isName_of_fileAt hnames hfile) hlast cwd
      refine ⟨⟨names, ?_, ?_, hfile, rfl⟩, (sourceName_iff hfileName).mp hsource⟩
      · rintro rfl
        cases hlast
      · obtain ⟨bytes, executable, hnode⟩ := hfile
        have hdepth := length_le_size (by simp [hnode] : t.node? (cwd.placeFrom t.workingDirectory ++ names) ≠ none)
        rw [List.length_append] at hdepth
        omega
  constructor
  case increasing => exact hincreasing
  case mem_iff => exact hmem
  case once =>
    intro names hsource
    exact List.count_eq_one_of_mem (Path.nodup_of_increasing hincreasing) ((hmem _).mpr ⟨names, hsource, rfl⟩)
  case leads =>
    intro names hsource
    exact Path.placeFrom_extend_names cwd (isName_of_fileAt hnames hsource.file) t.workingDirectory

theorem sources_discovered (hnames : t.WellNamed) (hcwd : t.isDirectory cwd = true) (hreadable : t.Readable cwd) :
    Discovered t cwd (sources t [] cwd) ∧
      (∀ listing, t.Lists listing → t.walkIn listing cwd "cs" isCompanion = sources t [] cwd) ∧
        ∀ explicit, explicit ≠ [] → sources t explicit cwd = explicit := by
  have hsources : sources t [] cwd = t.walkIn t.namesIn cwd "cs" isCompanion := rfl
  have hlists : t.Lists t.namesIn := fun _ => List.Perm.refl _
  have hfound := walkIn_discovered hnames hcwd hreadable hlists
  refine ⟨hsources ▸ hfound, fun listing hlisting => ?_, fun explicit hne => if_neg hne⟩
  have hother := walkIn_discovered hnames hcwd hreadable hlisting
  rw [hsources]
  apply Path.eq_of_increasing hother.increasing hfound.increasing
  intro q
  rw [hother.mem_iff, hfound.mem_iff]

def nested : FileTree :=
  let directories := ((FileTree.empty.set ["p"] .directory).set ["p", "a"] .directory).set ["p", "d.cs"] .directory
  let put (t : FileTree) (place : Place) : FileTree := t.set place (.file [] false)
  put (put (put (put (put directories ["p", "a", "z.cs"]) ["p", "a-b.cs"]) ["p", "d.cs", ".cs"]) ["p", "._a.cs"])
    ["p", "d.cs", "..cs"]

theorem nested_sources_discovered : nested.WellNamed ∧ nested.isDirectory ⟨"/p"⟩ = true ∧ nested.Readable ⟨"/p"⟩ ∧
    Discovered nested ⟨"/p"⟩ (sources nested [] ⟨"/p"⟩) ∧
      nested.walkIn (fun place => (nested.namesIn place).reverse) ⟨"/p"⟩ "cs" isCompanion = sources nested [] ⟨"/p"⟩ ∧
        sources nested [] ⟨"/p"⟩ = [⟨"/p/a/z.cs"⟩, ⟨"/p/a-b.cs"⟩, ⟨"/p/d.cs/..cs"⟩] := by
  have hnames : nested.WellNamed := by decide +kernel
  have hcwd : nested.isDirectory ⟨"/p"⟩ = true := by decide +kernel
  have hreadable : nested.Readable ⟨"/p"⟩ := by decide +kernel
  obtain ⟨hfound, hlisted, -⟩ := sources_discovered hnames hcwd hreadable
  have hreversed := hlisted (fun place => (nested.namesIn place).reverse) fun _ => List.reverse_perm _
  have hsources : sources nested [] ⟨"/p"⟩ = [⟨"/p/a/z.cs"⟩, ⟨"/p/a-b.cs"⟩, ⟨"/p/d.cs/..cs"⟩] := by
    have hwalk : (nested.filesBelow nested.namesIn nested.size ⟨"/p"⟩).filter
        (fun q => q.extension? == some "cs" && !isCompanion (q.fileName?.getD q.text)) =
          [⟨"/p/a/z.cs"⟩, ⟨"/p/a-b.cs"⟩, ⟨"/p/d.cs/..cs"⟩] := by decide +kernel
    have hnofile : nested.isFile ⟨"/p"⟩ = false := by decide +kernel
    have hsources : sources nested [] ⟨"/p"⟩ = nested.walkIn nested.namesIn ⟨"/p"⟩ "cs" isCompanion := rfl
    rw [hsources, walkIn, hnofile, if_neg Bool.false_ne_true, hwalk]
    exact Path.sort_of_sorted (by decide +kernel)
  exact ⟨hnames, hcwd, hreadable, hfound, hreversed, hsources⟩

end NativeBuild.Discovery
