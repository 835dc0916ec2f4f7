import NativeBuild.Discovery
import NativeBuild.Proofs.Text.Runs

namespace NativeBuild.Source

open Text (IsRun Stops isBlank isWord afterRun afterWord afterChar trimStart)

def IsModifier (modifier : List Char) : Prop :=
  modifier = [] ∨ ∃ gap, IsRun isBlank gap ∧ modifier = "async".toList ++ gap

/-- A text with a static method `Main` in it that has one parameter at most. -/
inductive HasEntryPoint : List Char → Prop
  | declared {before gap modifier type gap' gap'' parameter after : List Char}
      (hbefore : ∀ c ∈ before.getLast?, isWord c = false) (hgap : IsRun isBlank gap) (hmodifier : IsModifier modifier)
      (htype : type ≠ [] ∧ ∀ c ∈ type, isWord c = true ∨ c ∈ ['<', '>', '[', ']', '.']) (hgap' : IsRun isBlank gap')
      (hgap'' : ∀ c ∈ gap'', isBlank c = true) (hparameter : ∀ c ∈ parameter, c ≠ ',' ∧ c ≠ '(' ∧ c ≠ ')') :
      HasEntryPoint (before ++ "static".toList ++ gap ++ modifier ++ type ++ gap' ++ "Main".toList ++ gap'' ++ ['('] ++
        parameter ++ [')'] ++ after)

variable {cs rest modifier : List Char} {c : Char} {inWord : Bool}

theorem isTypeChar_iff : isTypeChar c = true ↔ isWord c = true ∨ c ∈ ['<', '>', '[', ']', '.'] := by
  simp [isTypeChar]

theorem isParameterChar_iff : isParameterChar c = true ↔ c ≠ ',' ∧ c ≠ '(' ∧ c ≠ ')' := by
  simp [isParameterChar, and_assoc]

theorem not_isTypeChar_of_isBlank (h : isBlank c = true) : isTypeChar c = false := by
  have hword := Text.not_isWord_of_isBlank h
  have hmark : c ∉ ['<', '>', '[', ']', '.'] := by
    intro hmem
    simp only [List.mem_cons, List.not_mem_nil, or_false] at hmem
    obtain rfl | rfl | rfl | rfl | rfl := hmem <;> cases h
  rw [← Bool.not_eq_true, isTypeChar_iff]
  simp [hword, hmark]

theorem not_isBlank_of_isTypeChar (h : isTypeChar c = true) : isBlank c = false := by
  rw [← Bool.not_eq_true]
  intro hblank
  rw [not_isTypeChar_of_isBlank hblank] at h
  cases h

inductive Method : List Char → Prop
  | mk {type gap gap' parameter : List Char} (after : List Char) (htype : IsRun isTypeChar type)
      (hgap : IsRun isBlank gap) (hgap' : ∀ c ∈ gap', isBlank c = true) (hparameter : ∀ c ∈ parameter, isParameterChar c = true) :
      Method (type ++ (gap ++ ("Main".toList ++ (gap' ++ '(' :: (parameter ++ ')' :: after)))))

theorem readsMethod_iff : readsMethod cs = true ↔ Method cs := by
  simp only [readsMethod, Option.isSome_iff_exists, Option.bind_eq_bind, Option.bind_eq_some_iff]
  constructor
  · rintro ⟨after, afterType, hreadType, afterGap, hreadGap, afterName, hname, afterOpen, hopen, hclose⟩
    obtain ⟨type, rfl, htype⟩ := Text.isRun_of_afterRun hreadType
    obtain ⟨gap, rfl, hgap⟩ := Text.isRun_of_afterRun hreadGap
    obtain rfl := Text.afterWord_eq_some_iff.mp hname
    obtain ⟨gap', hgap', hsplit⟩ := Text.exists_trimStart afterName
    have hparameter : afterOpen = afterOpen.takeWhile isParameterChar ++ ')' :: after := by
      rw [← Text.afterChar_eq_some_iff.mp hclose, List.takeWhile_append_dropWhile]
    rw [hsplit, Text.afterChar_eq_some_iff.mp hopen, hparameter]
    exact .mk after htype hgap hgap' (List.all_eq_true.mp List.all_takeWhile)
  · rintro @⟨type, gap, gap', parameter, after, htype, hgap, hgap', hparameter⟩
    have hname : Stops isBlank ("Main".toList ++ (gap' ++ '(' :: (parameter ++ ')' :: after))) := by simp [isBlank]
    refine ⟨after, _, Text.afterRun_append htype (hgap.stops fun _ => not_isTypeChar_of_isBlank), _,
      Text.afterRun_append hgap hname, _, Text.afterWord_eq_some_iff.mpr rfl, parameter ++ ')' :: after, ?_, ?_⟩
    · rw [Text.trimStart_append hgap' (by simp [isBlank]), Text.afterChar_eq_some_iff]
    · rw [Text.dropWhile_append_of_stops hparameter (by simp [isParameterChar]), Text.afterChar_eq_some_iff]

theorem Method.stops (h : Method rest) : Stops isBlank rest := by
  obtain ⟨-, htype, -, -, -⟩ := h
  exact htype.stops (fun _ => not_isBlank_of_isTypeChar)

theorem readsModified_iff :
    readsModified cs = true ↔ ∃ modifier rest, IsModifier modifier ∧ Method rest ∧ cs = modifier ++ rest := by
  simp only [readsModified, Bool.or_eq_true, readsMethod_iff, Option.any_eq_true, Option.bind_eq_bind,
    Option.bind_eq_some_iff]
  constructor
  · rintro (hmethod | ⟨rest, ⟨afterName, hname, hreadGap⟩, hmethod⟩)
    · exact ⟨[], cs, .inl rfl, hmethod, rfl⟩
    · obtain ⟨gap, rfl, hgap⟩ := Text.isRun_of_afterRun hreadGap
      refine ⟨_, rest, .inr ⟨gap, hgap, rfl⟩, hmethod, ?_⟩
      rw [Text.afterWord_eq_some_iff.mp hname, List.append_assoc]
      rfl
  · rintro ⟨modifier, rest, rfl | ⟨gap, hgap, rfl⟩, hmethod, rfl⟩
    · exact .inl hmethod
    · refine .inr ⟨rest, ⟨gap ++ rest, ?_, Text.afterRun_append hgap hmethod.stops⟩, hmethod⟩
      rw [Text.afterWord_eq_some_iff, List.append_assoc]
      rfl

theorem IsModifier.stops (hmodifier : IsModifier modifier) (hrest : Stops isBlank rest) :
    Stops isBlank (modifier ++ rest) := by
  obtain rfl | ⟨gap, -, rfl⟩ := hmodifier
  · exact hrest
  · simp [isBlank]

theorem readsDeclaration_iff :
    readsDeclaration cs = true ↔ ∃ gap modifier rest, IsRun isBlank gap ∧ IsModifier modifier ∧ Method rest ∧
      cs = "static".toList ++ (gap ++ (modifier ++ rest)) := by
  simp only [readsDeclaration, Option.any_eq_true, Option.bind_eq_bind, Option.bind_eq_some_iff, readsModified_iff]
  constructor
  · rintro ⟨_, ⟨afterName, hname, hreadGap⟩, modifier, rest, hmodifier, hmethod, rfl⟩
    obtain ⟨gap, rfl, hgap⟩ := Text.isRun_of_afterRun hreadGap
    exact ⟨gap, modifier, rest, hgap, hmodifier, hmethod, Text.afterWord_eq_some_iff.mp hname⟩
  · rintro ⟨gap, modifier, rest, hgap, hmodifier, hmethod, rfl⟩
    refine ⟨modifier ++ rest, ⟨gap ++ (modifier ++ rest), Text.afterWord_eq_some_iff.mpr rfl, ?_⟩, modifier, rest,
      hmodifier, hmethod, rfl⟩
    exact Text.afterRun_append hgap (hmodifier.stops hmethod.stops)

theorem declaresAfter_iff :
    declaresAfter inWord cs = true ↔ ∃ before rest, cs = before ++ rest ∧ readsDeclaration rest = true ∧
      (before.getLast?.map isWord).getD inWord = false := by
  induction cs generalizing inWord with
  | nil =>
    have hnone : readsDeclaration [] = false := rfl
    simp [declaresAfter, hnone]
  | cons c cs ih =>
    have hlast (before : List Char) : ((c :: before).getLast?.map isWord).getD inWord =
        (before.getLast?.map isWord).getD (isWord c) := by
      rw [List.getLast?_cons]
      cases before.getLast? <;> rfl
    rw [declaresAfter, Bool.or_eq_true, Bool.and_eq_true, Bool.not_eq_true', ih]
    constructor
    · rintro (⟨hword, hreads⟩ | ⟨before, rest, rfl, hreads, hword⟩)
      · exact ⟨[], c :: cs, rfl, hreads, hword⟩
      · exact ⟨c :: before, rest, rfl, hreads, (hlast before).trans hword⟩
    · rintro ⟨before, rest, hsplit, hreads, hword⟩
      cases before with
      | nil =>
        obtain rfl : c :: cs = rest := hsplit
        exact .inl ⟨hword, hreads⟩
      | cons b before =>
        obtain ⟨rfl, rfl⟩ := List.cons.inj hsplit
        exact .inr ⟨before, rest, rfl, hreads, (hlast before).symm.trans hword⟩

theorem getD_last_iff {before : List Char} :
    (before.getLast?.map isWord).getD false = false ↔ ∀ c ∈ before.getLast?, isWord c = false := by
  cases before.getLast? <;> simp

theorem declaresEntryPoint_iff {source : String} :
    declaresEntryPoint source = true ↔ HasEntryPoint source.toList := by
  simp only [declaresEntryPoint, declaresAfter_iff, readsDeclaration_iff, getD_last_iff]
  constructor
  · rintro ⟨before, _, hsource, ⟨gap, modifier, _, hgap, hmodifier, ⟨_, htype, hgap', hgap'', hparameter⟩, rfl⟩, hbefore⟩
    have htype' := fun c hc => isTypeChar_iff.mp (htype.all c hc)
    have hparameter' := fun c hc => isParameterChar_iff.mp (hparameter c hc)
    rw [hsource]
    simpa only [List.append_assoc, List.cons_append, List.nil_append] using
      HasEntryPoint.declared hbefore hgap hmodifier ⟨htype.nonempty, htype'⟩ hgap' hgap'' hparameter'
  · intro h
    generalize source.toList = cs at h
    obtain @⟨before, gap, modifier, type, gap', gap'', parameter, after, hbefore, hgap, hmodifier, ⟨hne, htype⟩, hgap',
      hgap'', hparameter⟩ := h
    have htype' : IsRun isTypeChar type := ⟨hne, fun c hc => isTypeChar_iff.mpr (htype c hc)⟩
    have hparameter' := fun c hc => isParameterChar_iff.mpr (hparameter c hc)
    refine ⟨before, _, ?_, ⟨gap, modifier, _, hgap, hmodifier, .mk after htype' hgap' hgap'' hparameter', rfl⟩,
      hbefore⟩
    simp only [List.append_assoc, List.cons_append, List.nil_append]

-- without a type after it, `async` is the type
example : declaresEntryPoint "class P { static async Main() { } }" = true := by decide +kernel

variable {t : FileTree} {p : Path} {sources : List Path} {holds passes : Path → Prop}

def Readable (t : FileTree) (p : Path) : Prop := ∃ text, t.readText p = .ok text

def StartsIn (t : FileTree) (p : Path) : Prop := ∃ text, t.readText p = .ok text ∧ HasEntryPoint text.toList

def Reached (holds passes : Path → Prop) (sources : List Path) : Prop :=
  ∃ before p after, sources = before ++ p :: after ∧ holds p ∧ ∀ q ∈ before, passes q

theorem not_reached_nil : ¬ Reached holds passes [] := by
  rintro ⟨before, p, after, hsplit, -⟩
  simp at hsplit

theorem reached_cons : Reached holds passes (p :: sources) ↔ holds p ∨ passes p ∧ Reached holds passes sources := by
  constructor
  · rintro ⟨before, q, after, hsplit, hq, hbefore⟩
    cases before with
    | nil =>
      obtain ⟨rfl, -⟩ := List.cons.inj hsplit
      exact .inl hq
    | cons b before =>
      obtain ⟨rfl, rfl⟩ := List.cons.inj hsplit
      obtain ⟨hb, hbefore⟩ := List.forall_mem_cons.mp hbefore
      exact .inr ⟨hb, before, q, after, rfl, hq, hbefore⟩
  · rintro (hp | ⟨hp, before, q, after, rfl, hq, hbefore⟩)
    · exact ⟨[], p, sources, rfl, hp, List.forall_mem_nil _⟩
    · exact ⟨p :: before, q, after, rfl, hq, List.forall_mem_cons.mpr ⟨hp, hbefore⟩⟩

structure Detected (t : FileTree) (sources : List Path) (result : Except FileFailure LinkType) : Prop where
  executable : result = .ok .executable ↔ Reached (StartsIn t) (Readable t) sources
  failure : (∃ e, result = .error e) ↔ Reached (fun p => ¬ Readable t p) (fun p => ¬ StartsIn t p) sources
  library : result = .ok .sharedLibrary ↔ ¬ Reached (StartsIn t) (Readable t) sources ∧
    ¬ Reached (fun p => ¬ Readable t p) (fun p => ¬ StartsIn t p) sources

theorem startsIn_iff {text : String} (h : t.readText p = .ok text) :
    StartsIn t p ↔ declaresEntryPoint text = true := by
  rw [declaresEntryPoint_iff]
  constructor
  · rintro ⟨text', htext, hstart⟩
    rw [h] at htext
    exact Except.ok.inj htext ▸ hstart
  · exact fun hstart => ⟨text, h, hstart⟩

theorem detected_linkType (t : FileTree) (sources : List Path) :
    Detected t sources (Discovery.linkType t sources) := by
  induction sources with
  | nil => exact ⟨by simp [Discovery.linkType, not_reached_nil], by simp [Discovery.linkType, not_reached_nil],
      by simp [Discovery.linkType, not_reached_nil]⟩
  | cons p sources ih =>
    cases hread : t.readText p with
    | error e =>
      have hunreadable : ¬ Readable t p := by simp [Readable, hread]
      have hquiet : ¬ StartsIn t p := by simp [StartsIn, hread]
      constructor <;> simp [Discovery.linkType, hread, reached_cons, hunreadable, hquiet]
    | ok text =>
      have hreadable : Readable t p := ⟨text, hread⟩
      have hstart := startsIn_iff hread
      by_cases hdeclares : declaresEntryPoint text = true
      · constructor <;> simp [Discovery.linkType, hread, reached_cons, hreadable, hstart, hdeclares]
      · have hlater : Discovery.linkType t (p :: sources) = Discovery.linkType t sources := by
          simp [Discovery.linkType, hread, hdeclares]
        rw [hlater]
        constructor <;> simp [reached_cons, hreadable, hstart, hdeclares, ih.executable, ih.failure, ih.library]

theorem entryPoint_detected :
    (∀ source, declaresEntryPoint source = true ↔ HasEntryPoint source.toList) ∧
    ∀ t sources, Detected t sources (Discovery.linkType t sources) :=
  ⟨fun _ => declaresEntryPoint_iff, detected_linkType⟩

end NativeBuild.Source
