import NativeBuild.Proofs.Link.Parts
import NativeBuild.Proofs.Text.Replacement

namespace NativeBuild.LinkRequest

def withUser (r : LinkRequest) (inputs flags : List String) : LinkRequest :=
  { r with extraInputs := inputs, ldflags := flags }

structure ElfFrame (r : LinkRequest) (front back : List String) : Prop where
  args : ∀ inputs flags, (r.withUser inputs flags).args = front ++ inputs.map r.expandInput ++ back ++ flags
  expanded : ∀ input token, token = r.expandInput input ↔
    Text.Replaced libpathMark.toList r.primaryDir.chars input.toList token.toList
  inputs : ∃ options program libraries ends,
    front = options ++ r.libDirs.map ("-L" ++ ·.text) ++ program ++ [r.object.text] ++ libraries ++ r.elfCLibrary ++ ends
  cLibrary : r.elfCLibrary =
    if r.profile.libc ∈ [.musl, .zisk, .ziskSim] then [r.primary "libc.a"]
    else if r.profile.libc = .bionic then ["-lc", "-lgcc"]
    else ["-lc", "-lgcc", "-lrt", "--as-needed", "-lgcc_s", "--no-as-needed"] ++
      if r.policy.pthread then ["-lpthread"] else []
  ends : back =
    if r.profile.libc = .musl then [r.primary "nofp.o"] else if r.profile.libc.isZkvm then r.zkvmBlock else []

variable {r : LinkRequest}

theorem eq_expandInput_iff (input token : String) : token = r.expandInput input ↔
    Text.Replaced libpathMark.toList r.primaryDir.chars input.toList token.toList := by
  have hmark : libpathMark.toList ≠ [] := by decide
  rw [Text.replaced_iff hmark, expandInput, ← String.toList_inj, String.toList_ofList]

theorem elfTail_eq : r.elfTail =
    if r.profile.libc = .musl then [r.primary "nofp.o"] else if r.profile.libc.isZkvm then r.zkvmBlock else [] := by
  rw [elfTail]
  split
  · next hmusl =>
    rw [hmusl]
    rfl
  · rw [List.nil_append]

theorem elfFrame (hpe : r.profile.os.isPe = false) : r.ElfFrame r.elfFront r.elfTail := by
  constructor
  case args => exact fun inputs flags => args_eq (r := r.withUser inputs flags) hpe
  case expanded => exact eq_expandInput_iff
  case inputs =>
    refine ⟨["-flavor", "ld"], r.elfOpening ++ [r.output.text] ++ r.hostedObjects,
      r.elfBody ++ r.exportsOptions ++ r.elfLibraries, r.elfEnd, ?_⟩
    simp only [elfFront, searchOptions, List.append_assoc]
  case cLibrary =>
    rw [elfCLibrary, isHosted]
    cases r.profile.libc <;> rfl
  case ends => exact elfTail_eq

theorem user_tokens_framed (r : LinkRequest) :
    (r.profile.os.isPe = true ∧ ∃ front, ∀ inputs flags, (r.withUser inputs flags).args = front ++ flags) ∨
      (r.profile.os.isPe = false ∧ ∃ front back, r.ElfFrame front back) := by
  cases hpe : r.profile.os.isPe with
  | true =>
    refine .inl ⟨rfl, r.peHead, fun inputs flags => ?_⟩
    rw [args, if_pos (show (r.withUser inputs flags).profile.os.isPe = true from hpe)]
    rfl
  | false => exact .inr ⟨rfl, r.elfFront, r.elfTail, elfFrame hpe⟩

end NativeBuild.LinkRequest
