import Mathlib.Data.List.Count
import NativeBuild.Codegen.Request
import NativeBuild.Proofs.Text.ByteOrder

namespace NativeBuild.CodegenRequest

variable {r : CodegenRequest} {arg name : String} {value : Bool}

/-- Arguments that stand alone, but for the one that takes cultures away. -/
def words : List String := [
  "--Os", "--Ot", "-O", "--methodbodyfolding", "-g", "--nativelib", "--stdlib:none", "--stdlib:zero",
  "--reflectiondata:none", "--stacktracedata"]

def marks : List String := [
  "-o:", "--targetos:", "--targetarch:", "--instruction-set:", "--directpinvoke:", "--directpinvokelist:", "--map:",
  "--mstat:", "--dgmllog:", "--scandgmllog:"]

inductive PlainArg : String → Prop
  | word {arg : String} (listed : arg ∈ words) : PlainArg arg
  | marked {mark : String} (listed : mark ∈ marks) (text : String) : PlainArg (mark ++ text)

def invariantArg : String := "--invariantglobalization"

def switchMark : String := "--feature:"

def isSwitch (arg : String) : Bool := switchMark.toList.isPrefixOf arg.toList

def targetArgs (r : CodegenRequest) : List String :=
  ["-o:" ++ r.object.text, "--targetos:" ++ r.profile.os.name, "--targetarch:" ++ r.profile.arch.name] ++
  optimizationArg r.policy.optimization ++
  (if r.policy.foldsBodies then ["--methodbodyfolding"] else []) ++
  (if r.profile.isa = [] then [] else ["--instruction-set:" ++ String.intercalate "," r.profile.isa]) ++
  (if r.policy.debugInfo then ["-g"] else []) ++
  (if r.policy.linkType.isExecutable then [] else ["--nativelib"]) ++
  stdlibArg r.policy.stdlib ++
  (if r.policy.reflection then [] else ["--reflectiondata:none"]) ++
  (if r.policy.stackTraceData then ["--stacktracedata"] else [])

def fileArgs (r : CodegenRequest) : List String :=
  r.policy.directImports.map ("--directpinvoke:" ++ ·) ++
  r.policy.directImportLists.map (fun file => "--directpinvokelist:" ++ (r.home.child file).text) ++
  (r.map.map (fun p => "--map:" ++ p.text)).toList ++
  (r.sizeAnalysis.map (sizeArgs r.policy.scans)).getD []

theorem args_eq_append (r : CodegenRequest) : r.args = r.targetArgs ++
    (if r.policy.globalization then [] else [invariantArg]) ++
      r.policy.featureSwitches.toList.map switchArg ++ r.fileArgs := by
  rw [args, targetArgs, fileArgs, invariantArg]
  simp only [List.append_assoc]

theorem plainArg_words {args : List String} (h : args ⊆ words) : ∀ arg ∈ args, PlainArg arg :=
  fun _ harg => .word (h harg)

theorem plainArg_marked {mark : String} (h : mark ∈ marks) (text : String) : ∀ arg ∈ [mark ++ text], PlainArg arg :=
  List.forall_mem_singleton.mpr (.marked h text)

theorem plainArg_ite {p : Prop} [Decidable p] {xs ys : List String} (hxs : ∀ arg ∈ xs, PlainArg arg)
    (hys : ∀ arg ∈ ys, PlainArg arg) : ∀ arg ∈ if p then xs else ys, PlainArg arg := by
  split
  · exact hxs
  · exact hys

theorem plainArg_targetArgs : ∀ arg ∈ r.targetArgs, PlainArg arg := by
  have hnone : ∀ arg ∈ ([] : List String), PlainArg arg := List.forall_mem_nil _
  rw [targetArgs]
  simp only [List.forall_mem_append]
  refine ⟨⟨⟨⟨⟨⟨⟨⟨?_, ?_⟩, ?_⟩, ?_⟩, ?_⟩, ?_⟩, ?_⟩, ?_⟩, ?_⟩
  · exact List.forall_mem_cons.mpr ⟨.marked (by decide) _,
      List.forall_mem_cons.mpr ⟨.marked (by decide) _, plainArg_marked (by decide) _⟩⟩
  · cases r.policy.optimization <;> exact plainArg_words (by decide)
  · exact plainArg_ite (plainArg_words (by decide)) hnone
  · exact plainArg_ite hnone (plainArg_marked (by decide) _)
  · exact plainArg_ite (plainArg_words (by decide)) hnone
  · exact plainArg_ite hnone (plainArg_words (by decide))
  · cases r.policy.stdlib <;> exact plainArg_words (by decide)
  · exact plainArg_ite hnone (plainArg_words (by decide))
  · exact plainArg_ite (plainArg_words (by decide)) hnone

theorem plainArg_fileArgs : ∀ arg ∈ r.fileArgs, PlainArg arg := by
  rw [fileArgs]
  simp only [List.forall_mem_append, List.forall_mem_map]
  refine ⟨⟨⟨fun _ _ => .marked (by decide) _, fun _ _ => .marked (by decide) _⟩, ?_⟩, ?_⟩
  · cases r.map with
    | none => exact List.forall_mem_nil _
    | some p => exact plainArg_marked (by decide) _
  · cases r.sizeAnalysis with
    | none => exact List.forall_mem_nil _
    | some a =>
      refine List.forall_mem_append.mpr ⟨?_, plainArg_ite (plainArg_marked (by decide) _) (List.forall_mem_nil _)⟩
      exact List.forall_mem_cons.mpr ⟨.marked (by decide) _, plainArg_marked (by decide) _⟩

theorem PlainArg.not_isPrefix {mark : List Char} (h : PlainArg arg) (hwords : ∀ word ∈ words, ¬ mark <+: word.toList)
    (hmarks : ∀ m ∈ marks, ¬ mark <+: m.toList ∧ ¬ m.toList <+: mark) : ¬ mark <+: arg.toList := by
  cases h with
  | word listed => exact hwords arg listed
  | marked listed text =>
    rw [String.toList_append]
    intro hstart
    exact (List.prefix_or_prefix_of_prefix hstart (List.prefix_append _ _)).elim (hmarks _ listed).1 (hmarks _ listed).2

theorem PlainArg.not_isSwitch (h : PlainArg arg) : isSwitch arg = false := by
  rw [isSwitch, ← Bool.not_eq_true, List.isPrefixOf_iff_prefix]
  exact h.not_isPrefix (by decide) (by decide)

theorem PlainArg.ne_invariantArg (h : PlainArg arg) : arg ≠ invariantArg := by
  rintro rfl
  have hstart : ¬ invariantArg.toList <+: invariantArg.toList := h.not_isPrefix (by decide) (by decide)
  exact hstart (List.prefix_refl _)

theorem isSwitch_switchArg (e : String × Bool) : isSwitch (switchArg e) = true := by
  rw [isSwitch, List.isPrefixOf_iff_prefix, switchArg, String.append_assoc, String.append_assoc, String.toList_append]
  exact List.prefix_append _ _

theorem invariantArg_mem_args_iff : invariantArg ∈ r.args ↔ r.policy.globalization = false := by
  have htarget : invariantArg ∉ r.targetArgs := fun h => (plainArg_targetArgs _ h).ne_invariantArg rfl
  have hfile : invariantArg ∉ r.fileArgs := fun h => (plainArg_fileArgs _ h).ne_invariantArg rfl
  have hswitch : invariantArg ∉ r.policy.featureSwitches.toList.map switchArg := by
    rw [List.mem_map]
    rintro ⟨e, -, he⟩
    exact absurd (he ▸ isSwitch_switchArg e) (by decide)
  rw [args_eq_append]
  simp only [List.mem_append, htarget, hswitch, hfile, false_or, or_false]
  cases r.policy.globalization <;> simp

theorem filter_isSwitch_args : r.args.filter isSwitch = r.policy.featureSwitches.toList.map switchArg := by
  have hplain {args : List String} (h : ∀ arg ∈ args, PlainArg arg) : args.filter isSwitch = [] :=
    List.filter_eq_nil_iff.mpr fun arg harg => by simp [(h arg harg).not_isSwitch]
  have hinvariant : (if r.policy.globalization then [] else [invariantArg]).filter isSwitch = [] := by
    split <;> decide
  have hswitch : (r.policy.featureSwitches.toList.map switchArg).filter isSwitch =
      r.policy.featureSwitches.toList.map switchArg :=
    List.filter_eq_self.mpr (List.forall_mem_map.mpr fun e _ => isSwitch_switchArg e)
  rw [args_eq_append, List.filter_append, List.filter_append, List.filter_append, hplain plainArg_targetArgs,
    hinvariant, hswitch, hplain plainArg_fileArgs, List.append_nil, List.nil_append, List.nil_append]

theorem switchArg_injective : Function.Injective switchArg := by
  have hcut (e : String × Bool) : Text.cutLast '=' (switchArg e).toList =
      some (switchMark.toList ++ e.1.toList, (if e.2 then "true" else "false").toList) := by
    rw [Text.cutLast_eq_some_iff, switchArg, switchMark]
    refine ⟨by simp, ?_⟩
    split <;> decide
  intro e e' h
  have hparts := (hcut e).symm.trans (h ▸ hcut e')
  rw [Option.some.injEq, Prod.mk.injEq, List.append_cancel_left_eq, String.toList_inj, String.toList_inj] at hparts
  obtain ⟨hname, hvalue⟩ := hparts
  refine Prod.ext hname ?_
  cases hv : e.2 <;> cases hv' : e'.2 <;> simp_all

structure Renders (args : List String) (table : FeatureTable) : Prop where
  switches : args.filter isSwitch = table.toList.map switchArg
  ordered : table.toList.Pairwise (fun a b => Text.encodeUtf8 a.1.toList < Text.encodeUtf8 b.1.toList)
  once : ∀ name value, args.count (switchArg (name, value)) = if table.get? name = some value then 1 else 0

theorem args_renders (r : CodegenRequest) : Renders r.args r.policy.featureSwitches := by
  constructor
  case switches => exact filter_isSwitch_args
  case ordered => exact r.policy.featureSwitches.increasing.imp Text.encodeUtf8_toList_lt
  case once =>
    intro name value
    have hnodup : r.policy.featureSwitches.toList.Nodup :=
      r.policy.featureSwitches.increasing.imp fun h heq => by simp [heq] at h
    rw [← List.count_filter (isSwitch_switchArg (name, value)), filter_isSwitch_args,
      List.count_map_of_injective _ _ switchArg_injective, hnodup.count]
    simp only [OrderedMap.mem_toList_iff]

theorem switchArg_mem_args_iff :
    switchArg (name, value) ∈ r.args ↔ r.policy.featureSwitches.get? name = some value := by
  rw [← List.count_pos_iff, (args_renders r).once]
  split <;> simp_all

end NativeBuild.CodegenRequest
