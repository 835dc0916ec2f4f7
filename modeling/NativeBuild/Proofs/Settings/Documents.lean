import NativeBuild.Proofs.Settings.Keys
import NativeBuild.Settings.Read

/-!
What files set and what is kept of it. Main statement: a key that the project's file sets has the value that stands
there, and any other the user's or none, but where the project's file sets what a key comes to without being set: the
user's value then stands.
-/

namespace NativeBuild.Settings

abbrev Document := List (String × TomlValue)

def Key.heading : Key → String
  | .os | .arch | .libc | .stdlib | .deterministic | .printCommands => "build"
  | .home | .lib | .ld | .objcopy | .frontEnd | .codegen => "tools"

def Key.name : Key → String
  | .os => "os"
  | .arch => "arch"
  | .libc => "libc"
  | .stdlib => "stdlib"
  | .deterministic => "deterministic"
  | .printCommands => "print_commands"
  | .home => "home"
  | .lib => "lib"
  | .ld => "ld"
  | .objcopy => "objcopy"
  | .frontEnd => "frontend"
  | .codegen => "codegen"

def Key.position : Key → Nat
  | .os | .home => 0
  | .arch | .lib => 1
  | .libc | .ld => 2
  | .stdlib | .objcopy => 3
  | .deterministic | .frontEnd => 4
  | .printCommands | .codegen => 5

def Key.read? : (k : Key) → TomlValue → Option k.Value
  | .os | .arch | .libc | .stdlib => fun v => (text? v).map some
  | .deterministic | .printCommands => flag?
  | .lib => paths?
  | .home | .ld | .objcopy | .frontEnd | .codegen => fun v => (path? v).map some

def lookup (name : String) (entries : List (String × TomlValue)) : Option TomlValue :=
  (entries.find? (fun e => e.1 = name)).map (·.2)

def itemOf? (name : String) (position : Nat) : TomlValue → Option TomlValue
  | .table entries => lookup name entries
  | .array items => items[position]?
  | _ => none

def Key.item? (k : Key) (d : Document) : Option TomlValue := (lookup k.heading d).bind (itemOf? k.name k.position)

def Key.readItem? (k : Key) : Option TomlValue → Option k.Value
  | none => some k.absent
  | some v => k.read? v

variable {d user project : Document} {k : Key} {s : Settings} {v : TomlValue} {t : FileTree} {file : Path}
  {b : BuildDefaults} {o : ToolOverrides}

theorem entries_of_section? {names : List String} {items : List (Option TomlValue)}
    (h : section? names v = some items) : items = names.zipIdx.map (fun e => itemOf? e.1 e.2 v) := by
  have hnames (f : String → Option TomlValue) : names.map f = names.zipIdx.map (fun e => f e.1) := by
    rw [show (fun e : String × Nat => f e.1) = f ∘ Prod.fst from rfl, ← List.map_map, List.zipIdx_map_fst]
  cases v with
  | table entries => exact (Option.some.inj h).symm.trans (hnames fun n => lookup n entries)
  | array items => exact (Option.some.inj h).symm
  | date => exact (Option.some.inj h).symm.trans (hnames fun _ => none)
  | string _ | integer | float | boolean _ => cases h

theorem of_readBuild (h : readBuild v = some b) :
    optional text? (itemOf? "os" 0 v) = some b.os ∧ optional text? (itemOf? "arch" 1 v) = some b.arch ∧
      optional text? (itemOf? "libc" 2 v) = some b.libc ∧ optional text? (itemOf? "stdlib" 3 v) = some b.stdlib ∧
      orDefault flag? (itemOf? "deterministic" 4 v) = some b.deterministic ∧
      orDefault flag? (itemOf? "print_commands" 5 v) = some b.printCommands := by
  rw [readBuild, Option.bind_eq_bind, Option.bind_eq_some_iff] at h
  obtain ⟨items, hitems, h⟩ := h
  obtain rfl := entries_of_section? hitems
  simp only [buildKeys, List.zipIdx_cons, List.zipIdx_nil, List.map_cons, List.map_nil, Option.bind_eq_bind,
    Option.bind_eq_some_iff, Option.pure_def, Option.some.injEq] at h
  obtain ⟨os, hos, arch, harch, libc, hlibc, stdlib, hstdlib, deterministic, hdeterministic, printCommands, hprint,
    rfl⟩ := h
  exact ⟨hos, harch, hlibc, hstdlib, hdeterministic, hprint⟩

theorem of_readTools (h : readTools v = some o) :
    optional path? (itemOf? "home" 0 v) = some o.home ∧ orDefault paths? (itemOf? "lib" 1 v) = some o.lib ∧
      optional path? (itemOf? "ld" 2 v) = some o.ld ∧ optional path? (itemOf? "objcopy" 3 v) = some o.objcopy ∧
      optional path? (itemOf? "frontend" 4 v) = some o.frontEnd ∧
      optional path? (itemOf? "codegen" 5 v) = some o.codegen := by
  rw [readTools, Option.bind_eq_bind, Option.bind_eq_some_iff] at h
  obtain ⟨items, hitems, h⟩ := h
  obtain rfl := entries_of_section? hitems
  simp only [toolKeys, List.zipIdx_cons, List.zipIdx_nil, List.map_cons, List.map_nil, Option.bind_eq_bind,
    Option.bind_eq_some_iff, Option.pure_def, Option.some.injEq] at h
  obtain ⟨home, hhome, lib, hlib, ld, hld, objcopy, hobjcopy, frontEnd, hfrontEnd, codegen, hcodegen, rfl⟩ := h
  exact ⟨hhome, hlib, hld, hobjcopy, hfrontEnd, hcodegen⟩

theorem of_read {text : String} (h : read text = some s) : ∃ d, Toml.read text = some d ∧
    orDefault readBuild (lookup "build" d) = some s.build ∧
      orDefault readTools (lookup "tools" d) = some s.tools := by
  rw [read, Option.bind_eq_bind, Option.bind_eq_some_iff] at h
  obtain ⟨d, hd, h⟩ := h
  simp only [section?, List.map_cons, List.map_nil, Option.bind_eq_bind, Option.bind_some, Option.bind_eq_some_iff,
    Option.pure_def, Option.some.injEq] at h
  obtain ⟨build, hbuild, tools, htools, rfl⟩ := h
  exact ⟨d, hd, hbuild, htools⟩

theorem readItem?_of_build {x : Option TomlValue} (h : orDefault readBuild x = some b) (o : ToolOverrides)
    (hk : k.heading = "build") : k.readItem? (x.bind (itemOf? k.name k.position)) = some (kept ⟨b, o⟩ k) := by
  cases x with
  | none =>
    obtain rfl : b = {} := (Option.some.inj h).symm
    cases k with
    | os | arch | libc | stdlib | deterministic | printCommands => rfl
    | home | lib | ld | objcopy | frontEnd | codegen => exact absurd hk (by decide)
  | some v =>
    obtain ⟨hos, harch, hlibc, hstdlib, hdeterministic, hprint⟩ := of_readBuild h
    cases k with
    | os => exact hos
    | arch => exact harch
    | libc => exact hlibc
    | stdlib => exact hstdlib
    | deterministic => exact hdeterministic
    | printCommands => exact hprint
    | home | lib | ld | objcopy | frontEnd | codegen => exact absurd hk (by decide)

theorem readItem?_of_tools {x : Option TomlValue} (h : orDefault readTools x = some o) (b : BuildDefaults)
    (hk : k.heading = "tools") : k.readItem? (x.bind (itemOf? k.name k.position)) = some (kept ⟨b, o⟩ k) := by
  cases x with
  | none =>
    obtain rfl : o = {} := (Option.some.inj h).symm
    cases k with
    | home | lib | ld | objcopy | frontEnd | codegen => rfl
    | os | arch | libc | stdlib | deterministic | printCommands => exact absurd hk (by decide)
  | some v =>
    obtain ⟨hhome, hlib, hld, hobjcopy, hfrontEnd, hcodegen⟩ := of_readTools h
    cases k with
    | home => exact hhome
    | lib => exact hlib
    | ld => exact hld
    | objcopy => exact hobjcopy
    | frontEnd => exact hfrontEnd
    | codegen => exact hcodegen
    | os | arch | libc | stdlib | deterministic | printCommands => exact absurd hk (by decide)

structure Loads (t : FileTree) (file : Path) (d : Document) : Prop where
  document : ∃ text, t.readText file = .ok text ∧ Toml.read text = some d
  loaded : ∃ s, load t file = .ok s

theorem Loads.kept_loadOrDefault (h : Loads t file d) (k : Key) :
    k.readItem? (k.item? d) = some ((loadOrDefault t file).kept k) := by
  obtain ⟨text, htext, hd⟩ := h.document
  obtain ⟨s, hs⟩ := h.loaded
  have hdefault : loadOrDefault t file = s := by rw [loadOrDefault, hs]; rfl
  have hread : read text = some s := by
    rw [load, htext] at hs
    dsimp only at hs
    split at hs
    · next s' hs' => rw [hs', Except.ok.inj hs]
    · cases hs
  obtain ⟨d', hd', hbuild, htools⟩ := of_read hread
  obtain rfl : d = d' := Option.some.inj (hd.symm.trans hd')
  rw [hdefault, Key.item?]
  obtain hk | hk : k.heading = "build" ∨ k.heading = "tools" := by cases k <;> decide
  · rw [hk, readItem?_of_build hbuild s.tools hk]
  · rw [hk, readItem?_of_tools htools s.build hk]

structure Key.Prevails (k : Key) (user project : Document) (s : Settings) : Prop where
  set : ∀ v, k.item? project = some v → k.read? v = some (s.kept k)
  unset : k.item? project = none → k.readItem? (k.item? user) = some (s.kept k)

def Key.Withdrawn (k : Key) (user project : Document) : Prop :=
  (k.item? project).bind k.read? = some k.absent ∧ k.readItem? (k.item? user) ≠ some k.absent

theorem Key.Withdrawn.mem (h : k.Withdrawn user project) : k ∈ [.deterministic, .printCommands, .lib] := by
  obtain ⟨v, -, hv⟩ := Option.bind_eq_some_iff.mp h.1
  have hmap {α β : Type} {f : α → Option β} {x : α} (hx : (f x).map some = some none) : False := by
    obtain ⟨y, -, hy⟩ := Option.map_eq_some_iff.mp hx
    cases hy
  cases k with
  | deterministic | printCommands | lib => decide
  | os | arch | libc | stdlib | home | ld | objcopy | frontEnd | codegen => exact (hmap hv).elim

theorem prevails_iff {a b : Settings} (ha : k.readItem? (k.item? user) = some (a.kept k))
    (hb : k.readItem? (k.item? project) = some (b.kept k)) :
    k.Prevails user project (a.merge b) ↔ ¬ k.Withdrawn user project := by
  cases hitem : k.item? project with
  | none =>
    have habsent : b.kept k = k.absent := by
      rw [hitem] at hb
      exact (Option.some.inj hb).symm
    have hset : k.Prevails user project (a.merge b) := by
      refine ⟨fun v hv => ?_, fun _ => ?_⟩
      · rw [hitem] at hv
        cases hv
      · rw [kept_merge_of_absent habsent, ha]
    have hnot : ¬ k.Withdrawn user project := by
      rintro ⟨hw, -⟩
      rw [hitem] at hw
      cases hw
    exact iff_of_true hset hnot
  | some v =>
    have hv : k.read? v = some (b.kept k) := by rwa [hitem] at hb
    have hprevails : k.Prevails user project (a.merge b) ↔ (a.merge b).kept k = b.kept k := by
      constructor
      · intro h
        exact Option.some.inj ((h.set v hitem).symm.trans hv)
      · intro h
        refine ⟨fun v' hv' => ?_, fun hnone => ?_⟩
        · rw [hitem] at hv'
          rw [← Option.some.inj hv', hv, h]
        · rw [hitem] at hnone
          cases hnone
    have hwithdrawn : k.Withdrawn user project ↔ b.kept k = k.absent ∧ a.kept k ≠ k.absent := by
      rw [Key.Withdrawn, hitem, Option.bind_some, hv, ha, Option.some.injEq, Ne, Option.some.injEq]
    rw [hprevails, hwithdrawn]
    by_cases habsent : b.kept k = k.absent
    · rw [kept_merge_of_absent habsent]
      simp [habsent]
    · rw [kept_merge_of_ne habsent]
      simp [habsent]

theorem loadAll_prevails_iff {dir cwd : Path} (huser : Loads t (userFile dir) user)
    (hproject : Loads t (projectFile cwd) project) (k : Key) :
    (k.Prevails user project (loadAll t (some dir) cwd) ↔ ¬ k.Withdrawn user project) ∧
      (k.Withdrawn user project → k ∈ [.deterministic, .printCommands, .lib]) := by
  rw [loadAll, Option.map_some, Option.getD_some]
  exact ⟨prevails_iff (huser.kept_loadOrDefault k) (hproject.kept_loadOrDefault k), Key.Withdrawn.mem⟩

def filed (user project : String) : FileTree :=
  let directories := (((FileTree.empty.set ["u"] .directory).set ["u", "aotbuild"] .directory).set ["p"] .directory).set
    ["p", ".aotbuild"] .directory
  (directories.set ["u", "aotbuild", "config.toml"] (.file (Text.encodeUtf8 user.toList) false)).set
    ["p", ".aotbuild", "config.toml"] (.file (Text.encodeUtf8 project.toList) false)

def documentOf (text : String) : Document := (Toml.read text).getD []

theorem loads_of_read {text : String} (htext : (t.readText file).toOption = some text)
    (h : (read text).isSome = true) : Loads t file (documentOf text) := by
  obtain ⟨s, hs⟩ := Option.isSome_iff_exists.mp h
  obtain ⟨d, hd, -⟩ := of_read hs
  have hfile : t.readText file = .ok text := FileTree.readText_eq_ok htext
  refine ⟨⟨text, hfile, ?_⟩, s, ?_⟩
  · rw [documentOf, hd]
    rfl
  · rw [load, hfile]
    dsimp only
    rw [hs]

def userText : String := "[build]\nos = \"linux\"\ndeterministic = true\n[tools]\nlib = [\"/usr/lib\"]\n"

def projectText : String := "tools = [\"/opt\", [\"lib\"]]\n[build]\ndeterministic = true\nprint_commands = false\n"

theorem filed_loadAll_prevails_iff :
    Loads (filed userText projectText) (userFile ⟨"/u"⟩) (documentOf userText) ∧
      Loads (filed userText projectText) (projectFile ⟨"/p"⟩) (documentOf projectText) ∧
      ∀ k : Key, k.Prevails (documentOf userText) (documentOf projectText)
        (loadAll (filed userText projectText) (some ⟨"/u"⟩) ⟨"/p"⟩) := by
  have huser : Loads (filed userText projectText) (userFile ⟨"/u"⟩) (documentOf userText) :=
    loads_of_read (by decide +kernel) (by decide +kernel)
  have hproject : Loads (filed userText projectText) (projectFile ⟨"/p"⟩) (documentOf projectText) :=
    loads_of_read (by decide +kernel) (by decide +kernel)
  have hdeterministic : ((Key.item? .deterministic (documentOf projectText)).bind flag?) ≠ some false := by
    decide +kernel
  have hprint : (Key.item? .printCommands (documentOf userText)).isNone = true := by decide +kernel
  have hlib : ((Key.item? .lib (documentOf projectText)).bind paths?) ≠ some [] := by decide +kernel
  refine ⟨huser, hproject, fun k => (loadAll_prevails_iff huser hproject k).1.mpr fun hw => ?_⟩
  have hmem : k ∈ [.deterministic, .printCommands, .lib] := (loadAll_prevails_iff huser hproject k).2 hw
  simp only [List.mem_cons, List.not_mem_nil, or_false] at hmem
  obtain rfl | rfl | rfl := hmem
  · exact hdeterministic hw.1
  · rw [Option.isNone_iff_eq_none] at hprint
    exact hw.2 (hprint ▸ rfl)
  · exact hlib hw.1

def firmText : String := "[build]\ndeterministic = true\n"

def relaxedText : String := "[build]\ndeterministic = false\n"

theorem filed_not_prevails :
    Loads (filed firmText relaxedText) (userFile ⟨"/u"⟩) (documentOf firmText) ∧
      Loads (filed firmText relaxedText) (projectFile ⟨"/p"⟩) (documentOf relaxedText) ∧
      ¬ Key.Prevails .deterministic (documentOf firmText) (documentOf relaxedText)
        (loadAll (filed firmText relaxedText) (some ⟨"/u"⟩) ⟨"/p"⟩) := by
  refine ⟨loads_of_read (by decide +kernel) (by decide +kernel),
    loads_of_read (by decide +kernel) (by decide +kernel), fun h => ?_⟩
  have hset : ((Key.item? .deterministic (documentOf relaxedText)).bind flag?) = some false := by decide +kernel
  have hkept : (loadAll (filed firmText relaxedText) (some ⟨"/u"⟩) ⟨"/p"⟩).build.deterministic = true := by
    decide +kernel
  obtain ⟨v, hitem, hv⟩ := Option.bind_eq_some_iff.mp hset
  have hfalse : some false = some true := hv.symm.trans ((h.set v hitem).trans (congrArg some hkept))
  cases hfalse

end NativeBuild.Settings
