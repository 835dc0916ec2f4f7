import NativeBuild.Discovery
import NativeBuild.Proofs.Files.Search

namespace NativeBuild.Discovery

open Glob

variable {t : FileTree} {user : List Path} {d : Path}

/-- What looking up assemblies in a directory comes to: the user's and then those of the directory that are not left
out, and for each mask the files that it admits, under paths that lead where those inside the directory lead. -/
structure LooksUp (t : FileTree) (user : List Path) (d : Path) : Prop where
  references : ∃ found, references t user .dotnet d = .ok (user ++ found) ∧
    Listed t d (fun name => ".dll".toList <:+ name.toList ∧ name ∉ excludedReferences) found
  assemblies : ∃ found, filesIn t d "*.dll" = .ok found ∧ Listed t d (fun name => ".dll".toList <:+ name.toList) found
  core : ∃ found, filesIn t d "zerolib.dll" = .ok found ∧ Listed t d (fun name => name = "zerolib.dll") found
  leads : ∀ name, IsName name → (d.inside name).LeadsLike (d.child name) name

theorem literal_looksUp (hnames : t.WellNamed) (hd : Literal d) : LooksUp t user d := by
  have hassemblies : ∃ found, filesIn t d "*.dll" = .ok found ∧
      Listed t d (fun name => ".dll".toList <:+ name.toList) found :=
    filesIn_listed (m := .endsIn ".dll") hd hnames (by decide)
  constructor
  case references =>
    obtain ⟨found, hfound, hlisted⟩ := hassemblies
    refine ⟨_, ?_, hlisted.filter excludedReferences⟩
    rw [Discovery.references, hfound]
    rfl
  case assemblies => exact hassemblies
  case core => exact filesIn_listed (m := .called "zerolib.dll") hd hnames (by decide)
  case leads => exact fun name hname => d.inside_leadsLike hname

def stocked : FileTree :=
  let put (t : FileTree) (place : Place) : FileTree := t.set place (.file [] false)
  let directories := (FileTree.empty.set ["lib"] .directory).set ["lib", "old.dll"] .directory
  put (put (put directories ["lib", "zerolib.dll"]) ["lib", "Core.dll"]) ["lib", "notes.txt"]

theorem stocked_literal_looksUp : stocked.WellNamed ∧ Literal ⟨"./lib"⟩ ∧ ∃ found,
    references stocked [⟨"My.dll"⟩] .dotnet ⟨"./lib"⟩ = .ok (⟨"My.dll"⟩ :: found) ∧
      ⟨"lib/Core.dll"⟩ ∈ found ∧ ⟨"lib/zerolib.dll"⟩ ∉ found := by
  have hnames : stocked.WellNamed := by decide +kernel
  have hd : Literal ⟨"./lib"⟩ := by decide +kernel
  have hlooksUp : LooksUp stocked [⟨"My.dll"⟩] ⟨"./lib"⟩ := literal_looksUp hnames hd
  obtain ⟨found, hfound, hlisted⟩ := hlooksUp.references
  refine ⟨hnames, hd, found, hfound, ?_, ?_⟩
  · exact (hlisted.mem_iff _).mpr ⟨"Core.dll", by decide, by decide, by decide, by decide +kernel⟩
  · intro hmem
    obtain ⟨name, hname, ⟨-, hkept⟩, heq, -⟩ := (hlisted.mem_iff _).mp hmem
    have hfile := (Path.inside_leadsLike ⟨"./lib"⟩ hname).fileName
    rw [← heq] at hfile
    exact hkept (Option.some.inj hfile ▸ by decide)

def bracketed : FileTree :=
  (FileTree.empty.set ["lib[1]"] .directory).set ["lib[1]", "a.dll"] (.file [] false)

theorem bracketed_not_looksUp : bracketed.WellNamed ∧ ¬ LooksUp bracketed [] ⟨"lib[1]"⟩ := by
  refine ⟨by decide +kernel, fun h => ?_⟩
  have hread : readPattern ((⟨"lib[1]"⟩ : Path).child "*.dll").chars = .ok ⟨false, [.name [.char 'l', .char 'i', .char 'b',
      .oneOf [⟨'1', '1'⟩]], .name (Mask.endsIn ".dll").tokens], false⟩ := by decide +kernel
  obtain ⟨found, hfound, hlisted⟩ := h.assemblies
  rw [filesIn_of_readPattern hread rfl (by decide), Except.ok.injEq] at hfound
  have hempty : found = [] := by
    rw [← hfound]
    exact Path.sort_of_sorted List.Pairwise.nil
  have hmem : ⟨"lib[1]/a.dll"⟩ ∈ found :=
    (hlisted.mem_iff _).mpr ⟨"a.dll", by decide, by decide, by decide, by decide +kernel⟩
  rw [hempty] at hmem
  cases hmem

end NativeBuild.Discovery
