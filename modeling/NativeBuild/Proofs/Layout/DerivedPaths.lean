import NativeBuild.Layout
import NativeBuild.Proofs.Path.Naming

namespace NativeBuild.BuildPaths

open NativeBuild.Path (SolidExtension TakesExtension)

variable {output : Path} {profile : Profile} {linkType : LinkType} {map : Option Path} {analyse : Bool} {os : Os}

def derived (b : BuildPaths) : List Path :=
  b.object :: b.exports.toList ++ b.patched ::
    (b.sizeAnalysis.map (fun s => [s.sizes, s.scanGraph, s.codegenGraph])).getD [] ++ [b.debugSymbols]

structure Apart (b : BuildPaths) (os : Os) : Prop where
  distinct : b.derived.Pairwise (fun p q => ¬ p.Same q)
  debugSymbols : ¬ b.debugSymbols.Same b.output
  graphs : ∀ s ∈ b.sizeAnalysis, ¬ s.scanGraph.Same b.output ∧ ¬ s.codegenGraph.Same b.output
  object : b.object.Same b.output ↔ b.output.extension? = some os.objectExtension
  exports : ∀ p ∈ b.exports, p.Same b.output ↔ b.output.extension? = some (exportsExtension os)
  patched : b.patched.Same b.output ↔ b.output.extension? = some "patched"
  sizes : ∀ s ∈ b.sizeAnalysis, s.sizes.Same b.output ↔ b.output.extension? = some "mstat"

def extensions (os : Os) (linkType : LinkType) (analyse : Bool) : List String :=
  os.objectExtension :: (if linkType = .sharedLibrary then [exportsExtension os] else []) ++ "patched" ::
    (if analyse then ["mstat", "scan.dgml.xml", "codegen.dgml.xml"] else [])

theorem derived_ofOutput : (ofOutput output profile linkType map analyse).derived =
    (extensions profile.os linkType analyse).map output.withExtension ++ [output.addExtension "dwo"] := by
  cases linkType <;> cases analyse <;> rfl

theorem extensions_solid (os : Os) (linkType : LinkType) (analyse : Bool) :
    ∀ ext ∈ extensions os linkType analyse, SolidExtension ext := by
  cases os <;> cases linkType <;> cases analyse <;> decide

theorem extensions_nodup (os : Os) (linkType : LinkType) (analyse : Bool) :
    (extensions os linkType analyse).Nodup := by
  cases os <;> cases linkType <;> cases analyse <;> decide

theorem extensions_not_dwo (os : Os) (linkType : LinkType) (analyse : Bool) :
    ∀ ext ∈ extensions os linkType analyse, ¬ "dwo".toList <:+ ext.toList := by
  cases os <;> cases linkType <;> cases analyse <;> decide

theorem of_mem_sizeAnalysis {s : SizeAnalysis}
    (h : s ∈ (ofOutput output profile linkType map analyse).sizeAnalysis) : s = SizeAnalysis.ofOutput output := by
  obtain ⟨-, hs⟩ := Option.ite_none_right_eq_some.mp (Option.mem_def.mp h)
  exact (Option.some.inj hs).symm

theorem derived_distinct (h : output.TakesExtension) :
    (ofOutput output profile linkType map analyse).derived.Pairwise (fun p q => ¬ p.Same q) := by
  have hsolid := extensions_solid profile.os linkType analyse
  rw [derived_ofOutput, List.pairwise_append]
  refine ⟨?_, List.pairwise_singleton _ _, ?_⟩
  · rw [List.pairwise_map]
    apply (extensions_nodup profile.os linkType analyse).imp_of_mem
    intro ext ext' hmem hmem' hne hsame
    exact hne ((Path.withExtension_same_withExtension h (hsolid ext hmem) (hsolid ext' hmem')).mp hsame)
  · intro p hp q hq hsame
    obtain ⟨ext, hext, rfl⟩ := List.mem_map.mp hp
    rw [List.mem_singleton.mp hq] at hsame
    exact extensions_not_dwo profile.os linkType analyse ext hext
      (Path.suffix_of_addExtension_same h (by decide) (hsolid ext hext) hsame)

theorem not_distinct (h : ¬ output.TakesExtension) :
    ¬ (ofOutput output profile linkType map analyse).derived.Pairwise (fun p q => ¬ p.Same q) := by
  intro hdistinct
  have hpatched : output.withExtension "patched" ∈ (ofOutput output profile linkType map analyse).derived.tail := by
    cases linkType <;> cases analyse <;> simp [derived, ofOutput]
  apply (List.pairwise_cons.mp hdistinct).1 _ hpatched
  rw [Path.Same]
  exact congrArg Path.components (Path.withExtension_of_not_takes h _ _)

theorem ofOutput_apart_iff :
    (ofOutput output profile linkType map analyse).Apart profile.os ↔ output.TakesExtension := by
  constructor
  · intro hapart
    by_contra h
    exact not_distinct h hapart.distinct
  · intro h
    constructor
    case distinct => exact derived_distinct h
    case debugSymbols => exact Path.not_addExtension_same_self h.1 (by decide)
    case graphs =>
      intro s hs
      obtain rfl := of_mem_sizeAnalysis hs
      refine ⟨fun hsame => ?_, fun hsame => ?_⟩
      · exact Path.extension?_ne_of_dotted (by decide) ((Path.withExtension_same_self h (by decide)).mp hsame)
      · exact Path.extension?_ne_of_dotted (by decide) ((Path.withExtension_same_self h (by decide)).mp hsame)
    case object => exact Path.withExtension_same_self h (by cases profile.os <;> decide)
    case exports =>
      intro p hp
      obtain ⟨-, hp⟩ := Option.ite_none_right_eq_some.mp (Option.mem_def.mp hp)
      obtain rfl := Option.some.inj hp
      exact Path.withExtension_same_self h (by cases profile.os <;> decide)
    case patched => exact Path.withExtension_same_self h (by decide)
    case sizes =>
      intro s hs
      obtain rfl := of_mem_sizeAnalysis hs
      exact Path.withExtension_same_self h (by decide)

theorem dotted_ofOutput_collides :
    (⟨"/o/..app"⟩ : Path).fileName? = some "..app" ∧
      ¬ (ofOutput ⟨"/o/..app"⟩ ⟨.linux, .x64, .musl, []⟩ .sharedLibrary none true).Apart .linux := by
  refine ⟨by decide, fun hapart => ?_⟩
  have hsame : (Path.withExtension ⟨"/o/..app"⟩ "o").Same (Path.withExtension ⟨"/o/..app"⟩ "txt") := by decide
  exact (List.pairwise_cons.mp hapart.distinct).1 _ (by decide) hsame

end NativeBuild.BuildPaths
