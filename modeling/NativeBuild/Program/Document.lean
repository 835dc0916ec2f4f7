import NativeBuild.Ordered.Map
import NativeBuild.Program.Graph

namespace NativeBuild

structure ProgramDocument where
  roots : List String := []
  methods : OrderedMap String MethodBody := ∅
  unsupported : OrderedMap String String := ∅
  implementations : OrderedMap String (List Implementation) := ∅
  exports : List String := []
  deriving DecidableEq, Repr, Inhabited

namespace ProgramDocument

/-- A method that is listed as unsupported fails even where it has a body. -/
def body (d : ProgramDocument) (method : String) : Except ImportFailure MethodBody :=
  match d.unsupported.get? method with
  | some reason => .error ⟨method, reason⟩
  | none =>
    match d.methods.get? method with
    | some b => .ok b
    | none => .error ⟨method, "method body not found"⟩

def implementationsOf (d : ProgramDocument) (slot : String) : List Implementation :=
  (d.implementations.get? slot).getD []

def names (d : ProgramDocument) : List String :=
  d.roots ++ d.methods.values.flatMap (·.directCalls) ++ d.implementations.values.flatten.map (·.method)

theorem body_eq_ok {d : ProgramDocument} {m : String} {b : MethodBody} (h : d.body m = .ok b) :
    d.methods.get? m = some b := by
  unfold body at h
  split at h
  · simp at h
  · split at h
    · simp_all
    · simp at h

def graph (d : ProgramDocument) : ProgramGraph where
  roots := d.roots
  body := d.body
  implementations := d.implementationsOf
  exports := d.exports
  names := d.names
  root_mem := by intro m h; simp [names, h]
  call_mem := by
    intro m b h c hc
    have := OrderedMap.mem_values_of_get? (body_eq_ok h)
    simp only [names, List.mem_append, List.mem_flatMap]
    exact .inl (.inr ⟨b, this, hc⟩)
  implementation_mem := by
    intro slot i hi
    simp only [implementationsOf] at hi
    cases h : d.implementations.get? slot with
    | none => simp [h] at hi
    | some is =>
      have hv := OrderedMap.mem_values_of_get? h
      simp only [names, List.mem_append, List.mem_map, List.mem_flatten]
      exact .inr ⟨i, ⟨is, hv, by simpa [h] using hi⟩, rfl⟩

end ProgramDocument

end NativeBuild
