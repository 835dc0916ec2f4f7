import NativeBuild.Proofs.Path.Below
import NativeBuild.Proofs.Settings.Keys
import NativeBuild.Tools

namespace NativeBuild.Tools

open Settings (Overlaid LastSaid Unsaid kept_overlaid layered unsaid_or_lastSaid)
open NativeBuild.Path (Below)

variable {env : Environment} {layers : List Settings}

/-- A path that the environment gives, or else the last layer that says one, or else none of them. -/
inductive Chosen (env : Environment) (key : String) (setting : Settings → Option Path) (layers : List Settings)
    (fallback : Path) : Path → Prop
  | environment {text : String} (given : env.get? key = some text) : Chosen env key setting layers fallback ⟨text⟩
  | setting {p : Path} (silent : env.get? key = none) (last : LastSaid setting none layers (some p)) :
      Chosen env key setting layers fallback p
  | fallback (silent : env.get? key = none) (unsaid : Unsaid setting none layers) :
      Chosen env key setting layers fallback fallback

inductive ChosenLibraries (env : Environment) (layers : List Settings) : Option (List Path) → Prop
  | environment {text : String} {dirs : List Path} (given : env.get? "AOTBUILD_LIB" = some text) (listed : dirs ≠ [])
      (joined : text.toList = Text.joinPieces ':' (dirs.map Path.chars)) (apart : ∀ d ∈ dirs, ':' ∉ d.chars) :
      ChosenLibraries env layers (some dirs)
  | setting {dirs : List Path} (silent : env.get? "AOTBUILD_LIB" = none)
      (last : LastSaid (·.tools.lib) [] layers dirs) : ChosenLibraries env layers (some dirs)
  | missing (silent : env.get? "AOTBUILD_LIB" = none) (unsaid : Unsaid (·.tools.lib) [] layers) :
      ChosenLibraries env layers none

inductive Provided (t : FileTree) (directories : List Path) (home : Path) (name : String) : Path → Prop
  | bundled (present : t.exists? ((home.child "bin").child name) = true) :
      Provided t directories home name ((home.child "bin").child name)
  | searched {before after : List Path} {d : Path} (absent : t.exists? ((home.child "bin").child name) = false)
      (path : directories = before ++ d :: after) (found : t.isExecutable (d.child name) = true)
      (first : ∀ d' ∈ before, t.isExecutable (d'.child name) = false) :
      Provided t directories home name (d.child name)
  | missing (absent : t.exists? ((home.child "bin").child name) = false)
      (unfound : ∀ d ∈ directories, t.isExecutable (d.child name) = false) :
      Provided t directories home name ((home.child "bin").child name)

structure Located (t : FileTree) (directories : List Path) (env : Environment) (layers : List Settings)
    (defaultHome : Path) (tools : Tools) : Prop where
  home : Chosen env "AOTBUILD_HOME" (·.tools.home) layers defaultHome tools.home
  ld : Chosen env "AOTBUILD_LD" (·.tools.ld) layers ((tools.home.child "bin").child "lld") tools.ld
  objcopy : Chosen env "AOTBUILD_OBJCOPY" (·.tools.objcopy) layers ((tools.home.child "bin").child "llvm-objcopy")
    tools.objcopy
  frontEnd : ∃ p, Provided t directories tools.home "aot-frontend" p ∧
    Chosen env "AOTBUILD_FRONTEND" (·.tools.frontEnd) layers p tools.frontEnd
  codegen : ∃ p, Provided t directories tools.home "ilc" p ∧
    Chosen env "AOTBUILD_CODEGEN" (·.tools.codegen) layers p tools.codegen
  libraries : ChosenLibraries env layers tools.libraryOverride
  bundled : ∀ name ∈ ["lld", "llvm-objcopy", "aot-frontend", "ilc"],
    Below tools.home ["bin", name] ((tools.home.child "bin").child name)
  patchElf : Below tools.home ["patch_elf.py"] tools.patchElf
  zkvmDir : Below tools.home ["lib", "linux", "riscv64", "zisk"] tools.zkvmDir
  zkvmSimDir : Below tools.home ["lib", "linux", "riscv64", "zisk_sim"] tools.zkvmSimDir
  referenceDir : Below tools.home ["ref"] tools.referenceDir

theorem choose_chosen {setting : Settings → Option Path} (h : Overlaid setting none) (env : Environment) (key : String)
    (layers : List Settings) (fallback : Path) :
    Chosen env key setting layers fallback (choose env key (setting (layered layers)) fallback) := by
  rw [choose]
  cases hgiven : env.get? key with
  | some text => exact .environment hgiven
  | none =>
    obtain hunsaid | ⟨said, hlast⟩ := unsaid_or_lastSaid setting none layers
    · rw [h.layered_of_unsaid hunsaid]
      exact .fallback hgiven hunsaid
    · obtain ⟨p, rfl⟩ := Option.ne_none_iff_exists'.mp hlast.said
      rw [h.layered_of_lastSaid hlast]
      exact .setting hgiven hlast

theorem available_provided (t : FileTree) (directories : List Path) (home : Path) (name : String) :
    Provided t directories home name (available t directories home name) := by
  rw [available, bundled, onSearchPath, List.find?_map]
  cases hpresent : t.exists? ((home.child "bin").child name) with
  | true => exact .bundled hpresent
  | false =>
    cases hfound : directories.find? (t.isExecutable ∘ (·.child name)) with
    | none => exact .missing hpresent fun d hd => Bool.eq_false_iff.mpr (List.find?_eq_none.mp hfound d hd)
    | some d =>
      obtain ⟨hexecutable, before, after, hpath, hfirst⟩ := List.find?_eq_some_iff_append.mp hfound
      exact .searched hpresent hpath hexecutable fun d' hd' => by simpa using hfirst d' hd'

theorem splitDirectories_chosen {text : String} (h : env.get? "AOTBUILD_LIB" = some text) :
    ChosenLibraries env layers (some (splitDirectories text)) := by
  have hchars : (splitDirectories text).map Path.chars = Text.pieces ':' text.toList := by
    rw [splitDirectories, List.map_map]
    exact (List.map_congr_left fun cs _ => Path.chars_ofChars cs).trans (List.map_id _)
  refine .environment h ?_ ?_ fun d hd => ?_
  · intro hnone
    rw [hnone] at hchars
    exact Text.pieces_ne_nil ':' text.toList hchars.symm
  · rw [hchars, Text.joinPieces_pieces]
  · exact Text.not_mem_of_mem_pieces (hchars ▸ List.mem_map_of_mem hd)

theorem libraryOverride_chosen (t : FileTree) (directories : List Path) (env : Environment) (layers : List Settings)
    (defaultHome : Path) :
    ChosenLibraries env layers (resolve t directories env (layered layers).tools defaultHome).libraryOverride := by
  have hlib : Overlaid (·.tools.lib) [] := kept_overlaid .lib
  simp only [resolve]
  cases hgiven : env.get? "AOTBUILD_LIB" with
  | some text => exact splitDirectories_chosen hgiven
  | none =>
    obtain hunsaid | ⟨dirs, hlast⟩ := unsaid_or_lastSaid (·.tools.lib) [] layers
    · rw [if_pos (hlib.layered_of_unsaid hunsaid)]
      exact .missing hgiven hunsaid
    · have hdirs : (layered layers).tools.lib = dirs := hlib.layered_of_lastSaid hlast
      rw [hdirs, if_neg hlast.said]
      exact .setting hgiven hlast

theorem resolve_located (t : FileTree) (directories : List Path) (env : Environment) (layers : List Settings)
    (defaultHome : Path) :
    Located t directories env layers defaultHome (resolve t directories env (layered layers).tools defaultHome) ∧
      (∀ a b c : Settings, (a.merge b).merge c = a.merge (b.merge c)) ∧
      ∀ s : Settings, ({} : Settings).merge s = s ∧ s.merge {} = s := by
  refine ⟨?_, Settings.merge_assoc, fun s => ⟨s.default_merge, s.merge_default⟩⟩
  constructor
  case home => exact choose_chosen (kept_overlaid .home) ..
  case ld => exact choose_chosen (kept_overlaid .ld) ..
  case objcopy => exact choose_chosen (kept_overlaid .objcopy) ..
  case frontEnd => exact ⟨_, available_provided .., choose_chosen (kept_overlaid .frontEnd) ..⟩
  case codegen => exact ⟨_, available_provided .., choose_chosen (kept_overlaid .codegen) ..⟩
  case libraries => exact libraryOverride_chosen ..
  case bundled =>
    intro name hname
    have hisName : IsName name := by
      revert name
      decide
    exact ((Below.refl _).child (by decide)).child hisName
  case patchElf => exact (Below.refl _).child (by decide)
  case zkvmDir => exact ((((Below.refl _).child (by decide)).child (by decide)).child (by decide)).child (by decide)
  case zkvmSimDir => exact ((((Below.refl _).child (by decide)).child (by decide)).child (by decide)).child (by decide)
  case referenceDir => exact (Below.refl _).child (by decide)

end NativeBuild.Tools
