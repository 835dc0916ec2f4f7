import NativeBuild.Json.Reader
import NativeBuild.Json.Record
import NativeBuild.Program.Document
import NativeBuild.Program.Scan

namespace NativeBuild

open JsonValue (orDefault text? texts? list? table? record?)

def MethodBody.fieldNames : List String :=
  ["direct_calls", "virtual_calls", "allocated_types", "type_checks", "dictionary_lookups"]

def MethodBody.ofJson? (v : JsonValue) : Option MethodBody := do
  match ← record? fieldNames v with
  | [calls, slots, types, checks, lookups] =>
    return {
      directCalls := ← orDefault texts? calls
      virtualCalls := ← orDefault texts? slots
      allocatedTypes := ← orDefault texts? types
      typeChecks := ← orDefault texts? checks
      dictionaryLookups := ← orDefault texts? lookups }
  | _ => none

def Implementation.ofJson? (v : JsonValue) : Option Implementation := do
  match ← record? ["type", "method"] v with
  | [some type, some method] => return ⟨← text? type, ← text? method⟩
  | _ => none

namespace ProgramDocument

def fieldNames : List String := ["roots", "methods", "unsupported", "implementations", "exports"]

def ofJson? (v : JsonValue) : Option ProgramDocument := do
  match ← record? fieldNames v with
  | [roots, methods, unsupported, implementations, exports] =>
    return {
      roots := ← orDefault texts? roots
      methods := ← orDefault (table? MethodBody.ofJson?) methods
      unsupported := ← orDefault (table? text?) unsupported
      implementations := ← orDefault (table? (list? Implementation.ofJson?)) implementations
      exports := ← orDefault texts? exports }
  | _ => none

def read (text : String) : Option ProgramDocument := (JsonValue.read text.toList).bind ofJson?

end ProgramDocument

namespace ScanResult

def sets (m : OrderedMap String (OrderedSet String)) : JsonValue :=
  .ofFields (m.toList.map (fun e => (e.1, .ofTexts e.2.toList)))

def failureJson (e : ImportFailure) : JsonValue :=
  .ofFields [("method", .ofText e.method), ("reason", .ofText e.reason)]

def toJson (r : ScanResult) : JsonValue :=
  .ofFields [
    ("reachable", .ofTexts r.reachable.toList),
    ("allocated", .ofTexts r.allocated.toList),
    ("devirtualized", .ofFields (r.devirtualized.toList.map (fun e => (e.1, .ofText e.2)))),
    ("vtable_layout", sets r.vtableLayout),
    ("dictionary_layout", sets r.dictionaryLayout),
    ("dead_type_checks", .ofTexts r.deadTypeChecks.toList),
    ("import_failures", .ofFields (r.importFailures.toList.map (fun e => (e.1, failureJson e.2))))]

def written (r : ScanResult) : String := String.ofList r.toJson.written

end ScanResult

end NativeBuild
