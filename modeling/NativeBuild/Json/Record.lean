import NativeBuild.Json.Basic
import NativeBuild.Ordered.Map

/-!
Taking JSON values apart. A record is an object, whose unknown fields are passed over, or an array
of its fields in order. No field of a record may come twice; a table keeps the last of its equal keys.
-/

namespace NativeBuild.JsonValue

def text? : JsonValue → Option String
  | .string s => s
  | _ => none

def list? {α : Type} (item? : JsonValue → Option α) : JsonValue → Option (List α)
  | .array vs => vs.mapM item?
  | _ => none

def texts? : JsonValue → Option (List String) := list? text?

def keyed? {α : Type} (item? : JsonValue → Option α) (e : Option String × JsonValue) : Option (String × α) :=
  e.1.bind (fun key => (item? e.2).map (key, ·))

def table? {α : Type} (item? : JsonValue → Option α) : JsonValue → Option (OrderedMap String α)
  | .object es => (es.mapM (keyed? item?)).map OrderedMap.ofList
  | _ => none

def namedFields (es : List (Option String × JsonValue)) : Option (List (String × JsonValue)) :=
  es.mapM (fun e => e.1.map (·, e.2))

def field? (es : List (String × JsonValue)) (name : String) : Option (Option JsonValue) :=
  match es.filter (fun e => e.1 = name) with
  | [] => some none
  | [e] => some (some e.2)
  | _ => none

def record? (names : List String) : JsonValue → Option (List (Option JsonValue))
  | .object es => (namedFields es).bind (fun es => names.mapM (field? es))
  | .array vs =>
    if vs.length ≤ names.length then
      some (vs.map some ++ List.replicate (names.length - vs.length) none)
    else none
  | _ => none

def orDefault {α : Type} [Inhabited α] (item? : JsonValue → Option α) : Option JsonValue → Option α
  | none => some default
  | some v => item? v

end NativeBuild.JsonValue
