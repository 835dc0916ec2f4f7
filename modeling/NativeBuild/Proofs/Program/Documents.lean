import Mathlib
import NativeBuild.Build.Toolchain
import NativeBuild.Proofs.Json.Grammar
import NativeBuild.Proofs.Json.Records
import NativeBuild.Proofs.Json.Writing

namespace NativeBuild

open JsonValue (Record Omittable Sequence IsText Table Reads Holds Repeats Item record? table? list? text? texts?)

def MethodBody.PresentedBy (b : MethodBody) (v : JsonValue) : Prop :=
  ∃ calls slots types checks lookups,
    Record [("direct_calls", calls), ("virtual_calls", slots), ("allocated_types", types), ("type_checks", checks),
      ("dictionary_lookups", lookups)] v ∧
      Omittable (Sequence IsText) b.directCalls calls ∧ Omittable (Sequence IsText) b.virtualCalls slots ∧
        Omittable (Sequence IsText) b.allocatedTypes types ∧ Omittable (Sequence IsText) b.typeChecks checks ∧
          Omittable (Sequence IsText) b.dictionaryLookups lookups

def Implementation.PresentedBy (i : Implementation) (v : JsonValue) : Prop :=
  Record [("type", some (.ofText i.type)), ("method", some (.ofText i.method))] v

def Implementation.LooselyPresentedBy (i : Implementation) (v : JsonValue) : Prop :=
  ∃ type method, Record [("type", type), ("method", method)] v ∧ Omittable IsText i.type type ∧
    Omittable IsText i.method method

namespace ProgramDocument

def PresentedBy (P : Implementation → JsonValue → Prop) (d : ProgramDocument) (v : JsonValue) : Prop :=
  ∃ roots methods unsupported implementations exports,
    Record [("roots", roots), ("methods", methods), ("unsupported", unsupported), ("implementations", implementations),
      ("exports", exports)] v ∧
      Omittable (Sequence IsText) d.roots roots ∧ Omittable (Table MethodBody.PresentedBy) d.methods methods ∧
        Omittable (Table IsText) d.unsupported unsupported ∧
          Omittable (Table (Sequence P)) d.implementations implementations ∧
            Omittable (Sequence IsText) d.exports exports

def PresentedIn (P : Implementation → JsonValue → Prop) (d : ProgramDocument) (text : String) : Prop :=
  ∃ v, Item v text.toList ∧ d.PresentedBy P v

inductive Repetitive (v : JsonValue) : Prop
  | document (h : Repeats fieldNames v)
  | body {bodies : List (Option String × JsonValue)} {key : Option String} {b : JsonValue}
      (hbodies : Holds fieldNames "methods" v (.object bodies)) (hb : (key, b) ∈ bodies)
      (h : Repeats MethodBody.fieldNames b)
  | implementation {slots : List (Option String × JsonValue)} {key : Option String} {is : List JsonValue}
      {i : JsonValue} (hslots : Holds fieldNames "implementations" v (.object slots)) (his : (key, .array is) ∈ slots)
      (hi : i ∈ is) (h : Repeats ["type", "method"] i)

end ProgramDocument

variable {v : JsonValue} {d : ProgramDocument} {text : String} {files : FileTree} {file : Path}

theorem reads_methodBody : Reads MethodBody.ofJson? MethodBody.PresentedBy := by
  rintro b v ⟨calls, slots, types, checks, lookups, hrecord, hcalls, hslots, htypes, hchecks, hlookups⟩
  have hread : record? MethodBody.fieldNames v = some [calls, slots, types, checks, lookups] :=
    JsonValue.record?_of_record hrecord rfl (by decide)
  have htexts : Reads texts? (Sequence IsText) := JsonValue.reads_text?.list
  simp [MethodBody.ofJson?, hread, htexts.orDefault hcalls, htexts.orDefault hslots, htexts.orDefault htypes,
    htexts.orDefault hchecks, htexts.orDefault hlookups]

theorem reads_implementation : Reads Implementation.ofJson? Implementation.PresentedBy := by
  intro i v hrecord
  have hread : record? ["type", "method"] v = some [some (.ofText i.type), some (.ofText i.method)] :=
    JsonValue.record?_of_record hrecord rfl (by decide)
  simp [Implementation.ofJson?, hread, JsonValue.ofText, text?]

theorem reads_document : Reads ProgramDocument.ofJson? (ProgramDocument.PresentedBy Implementation.PresentedBy) := by
  rintro d v ⟨roots, methods, unsupported, implementations, exports, hrecord, hroots, hmethods, hunsupported,
    himplementations, hexports⟩
  have hread : record? ProgramDocument.fieldNames v = some [roots, methods, unsupported, implementations, exports] :=
    JsonValue.record?_of_record hrecord rfl (by decide)
  have htexts : Reads texts? (Sequence IsText) := JsonValue.reads_text?.list
  simp [ProgramDocument.ofJson?, hread, htexts.orDefault hroots, reads_methodBody.table.orDefault hmethods,
    JsonValue.reads_text?.table.orDefault hunsupported, reads_implementation.list.table.orDefault himplementations,
    htexts.orDefault hexports]

theorem methodBody_eq_none (h : Repeats MethodBody.fieldNames v) : MethodBody.ofJson? v = none := by
  rw [MethodBody.ofJson?, h.record?_eq_none]
  rfl

theorem implementation_eq_none (h : Repeats ["type", "method"] v) : Implementation.ofJson? v = none := by
  rw [Implementation.ofJson?, h.record?_eq_none]
  rfl

theorem exists_of_ofJson? (h : ProgramDocument.ofJson? v = some d) :
    ∃ roots methods unsupported implementations exports,
      record? ProgramDocument.fieldNames v = some [roots, methods, unsupported, implementations, exports] ∧
        JsonValue.orDefault (table? MethodBody.ofJson?) methods = some d.methods ∧
          JsonValue.orDefault (table? (list? Implementation.ofJson?)) implementations = some d.implementations := by
  rw [ProgramDocument.ofJson?, Option.bind_eq_bind, Option.bind_eq_some_iff] at h
  obtain ⟨items, hitems, h⟩ := h
  split at h
  · simp only [Option.bind_eq_bind, Option.bind_eq_some_iff, Option.pure_def, Option.some.injEq] at h
    obtain ⟨_, -, _, hmethods, _, -, _, himplementations, _, -, rfl⟩ := h
    exact ⟨_, _, _, _, _, hitems, hmethods, himplementations⟩
  · cases h

theorem document_eq_none (h : ProgramDocument.Repetitive v) : ProgramDocument.ofJson? v = none := by
  apply Option.eq_none_iff_forall_ne_some.mpr
  intro d hd
  obtain ⟨roots, methods, unsupported, implementations, exports, hread, hmethods, himplementations⟩ :=
    exists_of_ofJson? hd
  cases h with
  | document h =>
    rw [h.record?_eq_none] at hread
    cases hread
  | body hbodies hb h =>
    obtain rfl : methods = some _ := Option.some.inj (hbodies.getElem?_record? (by decide) hread)
    have hnone := JsonValue.table?_eq_none hb (methodBody_eq_none h)
    cases hnone.symm.trans hmethods
  | implementation hslots his hi h =>
    obtain rfl : implementations = some _ := Option.some.inj (hslots.getElem?_record? (by decide) hread)
    have hnone := JsonValue.table?_eq_none his (JsonValue.list?_eq_none hi (implementation_eq_none h))
    cases hnone.symm.trans himplementations

def MethodBody.toJson (b : MethodBody) : JsonValue :=
  .ofFields [("direct_calls", .ofTexts b.directCalls), ("virtual_calls", .ofTexts b.virtualCalls),
    ("allocated_types", .ofTexts b.allocatedTypes), ("type_checks", .ofTexts b.typeChecks),
    ("dictionary_lookups", .ofTexts b.dictionaryLookups)]

def Implementation.toJson (i : Implementation) : JsonValue :=
  .ofFields [("type", .ofText i.type), ("method", .ofText i.method)]

def ProgramDocument.toJson (d : ProgramDocument) : JsonValue :=
  .ofFields [("roots", .ofTexts d.roots),
    ("methods", .ofFields (d.methods.toList.map (fun e => (e.1, e.2.toJson)))),
    ("unsupported", .ofFields (d.unsupported.toList.map (fun e => (e.1, .ofText e.2)))),
    ("implementations",
      .ofFields (d.implementations.toList.map (fun e => (e.1, .array (e.2.map Implementation.toJson))))),
    ("exports", .ofTexts d.exports)]

theorem sequence_ofTexts (ss : List String) : Sequence IsText ss (.ofTexts ss) := 
  JsonValue.sequence_map JsonValue.isText_ofText ss

theorem MethodBody.presentedBy_toJson (b : MethodBody) : b.PresentedBy b.toJson :=
  ⟨some _, some _, some _, some _, some _, .plain, sequence_ofTexts _,
    sequence_ofTexts _, sequence_ofTexts _, sequence_ofTexts _, sequence_ofTexts _⟩

theorem Implementation.presentedBy_toJson (i : Implementation) : i.PresentedBy i.toJson :=
  .plain

theorem ProgramDocument.presentedBy_toJson (d : ProgramDocument) : d.PresentedBy Implementation.PresentedBy d.toJson :=
  ⟨some _, some _, some _, some _, some _, .plain, sequence_ofTexts _,
    JsonValue.table_toList MethodBody.presentedBy_toJson _, JsonValue.table_toList JsonValue.isText_ofText _,
    JsonValue.table_toList (JsonValue.sequence_map Implementation.presentedBy_toJson) _, sequence_ofTexts _⟩

theorem MethodBody.proper_toJson (b : MethodBody) : b.toJson.Proper := by
  apply JsonValue.proper_ofFields
  simp [JsonValue.proper_ofTexts]

theorem Implementation.proper_toJson (i : Implementation) : i.toJson.Proper := by
  apply JsonValue.proper_ofFields
  simp [JsonValue.ofText, JsonValue.Proper.string]

theorem proper_table {α : Type} {f : α → JsonValue} (h : ∀ x, (f x).Proper) (m : OrderedMap String α) :
    (JsonValue.ofFields (m.toList.map (fun e => (e.1, f e.2)))).Proper :=
  JsonValue.proper_ofFields (List.forall_mem_map.mpr fun e _ => h e.2)

theorem ProgramDocument.proper_toJson (d : ProgramDocument) : d.toJson.Proper := by
  have himplementations (is : List Implementation) : (JsonValue.array (is.map Implementation.toJson)).Proper :=
    .array (List.forall_mem_map.mpr fun i _ => i.proper_toJson)
  apply JsonValue.proper_ofFields
  simp [JsonValue.proper_ofTexts, proper_table MethodBody.proper_toJson, proper_table himplementations,
    proper_table (fun s => JsonValue.Proper.string (some s)), JsonValue.ofText]

theorem ProgramDocument.exists_presentedIn (d : ProgramDocument) :
    ∃ text, d.PresentedIn Implementation.PresentedBy text := by
  refine ⟨String.ofList d.toJson.written, d.toJson, ?_, d.presentedBy_toJson⟩
  rw [String.toList_ofList]
  exact JsonValue.item_of_spelled d.proper_toJson.spelled_written

theorem ScanResult.read_written (r : ScanResult) : JsonValue.read r.written.toList = some r.toJson := by
  have hset (s : OrderedSet String) : (JsonValue.ofTexts s.toList).Proper := JsonValue.proper_ofTexts s.toList
  have hsets (m : OrderedMap String (OrderedSet String)) : (ScanResult.sets m).Proper := proper_table hset m
  have hfailure (e : ImportFailure) : (ScanResult.failureJson e).Proper := by
    apply JsonValue.proper_ofFields
    simp [JsonValue.ofText, JsonValue.Proper.string]
  have hproper : r.toJson.Proper := by
    apply JsonValue.proper_ofFields
    simp [JsonValue.proper_ofTexts, hsets, proper_table hfailure, JsonValue.ofText,
      proper_table (fun s => JsonValue.Proper.string (some s))]
  rw [ScanResult.written, String.toList_ofList, JsonValue.read_written hproper]

namespace ProgramDocument

theorem read_faithful (text : String) :
    (∀ d : ProgramDocument, d.PresentedIn Implementation.PresentedBy text → read text = some d ∧
      ∀ (files : FileTree) (file : Path), files.readText file = .ok text →
        Toolchain.readGraph files file = .ok d.graph) ∧
      ∀ v, Item v text.toList → Repetitive v → read text = none ∧
        ∀ (files : FileTree) (file : Path), files.readText file = .ok text →
          Toolchain.readGraph files file = .error (.malformed file) := by
  constructor
  · rintro d ⟨v, hv, hd⟩
    have hread : read text = some d := by
      rw [read, JsonValue.read_eq_some_iff.mpr hv, Option.bind_some, reads_document d v hd]
    exact ⟨hread, fun files file hfile => by simp [Toolchain.readGraph, hfile, hread]⟩
  · intro v hv hrepeats
    have hread : read text = none := by
      rw [read, JsonValue.read_eq_some_iff.mpr hv, Option.bind_some, document_eq_none hrepeats]
    exact ⟨hread, fun files file hfile => by simp [Toolchain.readGraph, hfile, hread]⟩

def presentedText : String :=
  "\x7b\"x\":[[null],\"\\ud800\"],\"methods\":\x7b\"M\":[[\"N\"]],\"M\":\x7b\"y\":-1e9,\"direct_calls\":[\"\\ud83d\\ude00\"]\x7d\x7d\x7d"

def presentedBodies : List (String × JsonValue) :=
  [("M", .array [.ofTexts ["N"]]), ("M", .ofFields [("y", .number "-1e9".toList), ("direct_calls", .ofTexts ["😀"])])]

def presented : ProgramDocument where
  methods := .ofList [("M", { directCalls := ["N"] }), ("M", { directCalls := ["😀"] })]

theorem presented_presentedIn : presented.PresentedIn Implementation.PresentedBy presentedText := by
  have harray : Record [("direct_calls", some (.ofTexts ["N"])), ("virtual_calls", none), ("allocated_types", none),
      ("type_checks", none), ("dictionary_lookups", none)] (.array ([.ofTexts ["N"]])) :=
    @Record.array _ [.ofTexts ["N"]] 4 rfl
  have hfirst : MethodBody.PresentedBy { directCalls := ["N"] } (.array [.ofTexts ["N"]]) :=
    ⟨some (.ofTexts ["N"]), none, none, none, none, harray, sequence_ofTexts _, rfl, rfl, rfl, rfl⟩
  have hsecond : MethodBody.PresentedBy { directCalls := ["😀"] }
      (.ofFields [("y", .number "-1e9".toList), ("direct_calls", .ofTexts ["😀"])]) := by
    refine ⟨some (.ofTexts ["😀"]), none, none, none, none, ?_, sequence_ofTexts _, rfl, rfl, rfl, rfl⟩
    exact @Record.object _ _ [("y", .number "-1e9".toList)] (by decide) (List.Perm.swap _ _ _)
  refine ⟨.ofFields [("x", .array [.array [.null], .string none]), ("methods", .ofFields presentedBodies)],
    JsonValue.read_eq_some_iff.mp (by cbv), none, some (.ofFields presentedBodies), none, none, none, ?_, rfl, ?_, rfl,
    rfl, rfl⟩
  · exact @Record.object _ _ [("x", .array [.array [.null], .string none])] (by decide) (List.Perm.swap _ _ _)
  · exact JsonValue.table_ofList (.cons ⟨rfl, hfirst⟩ (.cons ⟨rfl, hsecond⟩ .nil))

def repetitiveText : String :=
  "\x7b\"implementations\": \x7b\"S\": [\x7b\"type\": \"A\", \"method\": \"M\", \"type\": \"A\"\x7d]\x7d\x7d"

def repetitiveImplementation : JsonValue :=
  .ofFields [("type", .ofText "A"), ("method", .ofText "M"), ("type", .ofText "A")]

def repetitiveValue : JsonValue :=
  .ofFields [("implementations", .ofFields [("S", .array [repetitiveImplementation])])]

def filed (text : String) : FileTree := FileTree.empty.set ["graph.json"] (.file (Text.encodeUtf8 text.toList) false)

theorem presented_read_faithful :
    presented.PresentedIn Implementation.PresentedBy presentedText ∧
      (filed presentedText).readText ⟨"/graph.json"⟩ = .ok presentedText ∧ read presentedText = some presented ∧
      Toolchain.readGraph (filed presentedText) ⟨"/graph.json"⟩ = .ok presented.graph ∧
      Item repetitiveValue repetitiveText.toList ∧ Repetitive repetitiveValue ∧
      (filed repetitiveText).readText ⟨"/graph.json"⟩ = .ok repetitiveText ∧ read repetitiveText = none ∧
      Toolchain.readGraph (filed repetitiveText) ⟨"/graph.json"⟩ = .error (.malformed ⟨"/graph.json"⟩) := by
  have hpresented : (filed presentedText).readText ⟨"/graph.json"⟩ = .ok presentedText :=
    FileTree.readText_eq_ok (by decide +kernel)
  obtain ⟨hread, hload⟩ := (read_faithful presentedText).1 presented presented_presentedIn
  have hitem : Item repetitiveValue repetitiveText.toList := JsonValue.read_eq_some_iff.mp (by cbv)
  have hrepetitive : Repetitive repetitiveValue := by
    refine .implementation (.object List.mem_cons_self) List.mem_cons_self List.mem_cons_self ?_
    exact ⟨_, rfl, "type", List.mem_cons_self, by decide⟩
  have hfile : (filed repetitiveText).readText ⟨"/graph.json"⟩ = .ok repetitiveText :=
    FileTree.readText_eq_ok (by decide +kernel)
  obtain ⟨hnone, hrefused⟩ := (read_faithful repetitiveText).2 repetitiveValue hitem hrepetitive
  exact ⟨presented_presentedIn, hpresented, hread, hload _ _ hpresented, hitem, hrepetitive, hfile, hnone,
    hrefused _ _ hfile⟩

def untypedText : String := "\x7b\"implementations\": \x7b\"S\": [\x7b\"method\": \"M\"\x7d]\x7d\x7d"

def untyped : ProgramDocument where
  implementations := .ofList [("S", [⟨"", "M"⟩])]

theorem untyped_not_read :
    untyped.PresentedIn Implementation.LooselyPresentedBy untypedText ∧ read untypedText = none := by
  have himplementation : Implementation.LooselyPresentedBy ⟨"", "M"⟩ (.ofFields [("method", .ofText "M")]) :=
    ⟨none, some (.ofText "M"), .plain, rfl, rfl⟩
  have htable : Table (Sequence Implementation.LooselyPresentedBy) untyped.implementations
      (.ofFields [("S", .array [.ofFields [("method", .ofText "M")]])]) :=
    JsonValue.table_ofList (.cons ⟨rfl, _, rfl, .cons himplementation .nil⟩ .nil)
  refine ⟨⟨.ofFields [("implementations", .ofFields [("S", .array [.ofFields [("method", .ofText "M")]])])],
    JsonValue.read_eq_some_iff.mp (by cbv), none, none, none, some _, none, ?_, rfl, rfl, rfl, htable, rfl⟩,
    by decide +kernel⟩
  exact .plain

end ProgramDocument

end NativeBuild
