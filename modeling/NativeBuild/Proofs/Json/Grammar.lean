import NativeBuild.Proofs.Json.Numbers
import NativeBuild.Proofs.Json.Strings

namespace NativeBuild.JsonValue

open Text

def Blanks (gap : List Char) : Prop := ∀ c ∈ gap, isBlank c = true

mutual

inductive Spelled : JsonValue → List Char → Prop
  | null : Spelled .null "null".toList
  | yes : Spelled (.bool true) "true".toList
  | no : Spelled (.bool false) "false".toList
  | number {cs : List Char} (h : Number cs) : Spelled (.number cs) cs
  | string {s : Option String} {cs : List Char} (h : Quoted s cs) : Spelled (.string s) cs
  | noItems {gap : List Char} (hgap : Blanks gap) : Spelled (.array []) ('[' :: (gap ++ [']']))
  | items {vs : List JsonValue} {cs : List Char} (h : Items vs cs) : Spelled (.array vs) ('[' :: (cs ++ [']']))
  | noFields {gap : List Char} (hgap : Blanks gap) : Spelled (.object []) ('\x7b' :: (gap ++ ['\x7d']))
  | fields {es : List (Option String × JsonValue)} {cs : List Char} (h : Fields es cs) :
      Spelled (.object es) ('\x7b' :: (cs ++ ['\x7d']))

inductive Item : JsonValue → List Char → Prop
  | intro {v : JsonValue} {left cs right : List Char} (hleft : Blanks left) (h : Spelled v cs) (hright : Blanks right) :
      Item v (left ++ cs ++ right)

inductive Items : List JsonValue → List Char → Prop
  | one {v : JsonValue} {cs : List Char} (h : Item v cs) : Items [v] cs
  | more {v : JsonValue} {vs : List JsonValue} {cs tail : List Char} (h : Item v cs) (htail : Items vs tail) :
      Items (v :: vs) (cs ++ ',' :: tail)

inductive Entry : Option String × JsonValue → List Char → Prop
  | intro {key : Option String} {v : JsonValue} {left cs right value : List Char} (hleft : Blanks left)
      (hkey : Quoted key cs) (hright : Blanks right) (h : Item v value) :
      Entry (key, v) (left ++ cs ++ right ++ ':' :: value)

inductive Fields : List (Option String × JsonValue) → List Char → Prop
  | one {e : Option String × JsonValue} {cs : List Char} (h : Entry e cs) : Fields [e] cs
  | more {e : Option String × JsonValue} {es : List (Option String × JsonValue)} {cs tail : List Char}
      (h : Entry e cs) (htail : Fields es tail) : Fields (e :: es) (cs ++ ',' :: tail)

end

variable {cs rest gap left body : List Char} {c : Char} {n : Nat} {v : JsonValue} {vs : List JsonValue}
  {key : Option String} {es : List (Option String × JsonValue)}

theorem skipBlanks_append (hgap : Blanks gap) (hrest : Stops isBlank rest) : skipBlanks (gap ++ rest) = rest :=
  dropWhile_append_of_stops hgap hrest

@[simp] theorem skipBlanks_skipBlanks : skipBlanks (skipBlanks cs) = skipBlanks cs :=
  skipBlanks_append (List.forall_mem_nil _) stops_dropWhile

theorem exists_skipBlanks (cs : List Char) : ∃ gap, Blanks gap ∧ cs = gap ++ skipBlanks cs := by
  refine ⟨cs.takeWhile isBlank, ?_, List.takeWhile_append_dropWhile.symm⟩
  exact List.all_eq_true.mp List.all_takeWhile

theorem blank_cases (h : isBlank c = true) : c = ' ' ∨ c = '\n' ∨ c = '\t' ∨ c = '\r' := by
  simpa [isBlank, or_assoc] using h

theorem Blanks.stops (hgap : Blanks gap) (hrest : Stops goesOn rest) : Stops goesOn (gap ++ rest) := by
  refine stops_append (stops_of_all fun c hc => ?_) hrest
  obtain rfl | rfl | rfl | rfl := blank_cases (hgap c hc) <;> decide

theorem Quoted.starts (h : Quoted key cs) : ∃ body, cs = '"' :: body := by
  cases h with
  | text | noText => exact ⟨_, rfl⟩

theorem Spelled.starts (h : Spelled v cs) : ∃ c more, cs = c :: more ∧ isBlank c = false ∧ c ≠ ']' := by
  cases h with
  | null | yes | no | noItems | items | noFields | fields => exact ⟨_, _, rfl, by decide, by decide⟩
  | number h =>
    obtain ⟨c, more, rfl, hc⟩ := h.starts
    refine ⟨c, more, rfl, ?_⟩
    obtain rfl | hc := hc
    · decide
    · constructor
      · rw [Bool.eq_false_iff]
        intro hblank
        obtain rfl | rfl | rfl | rfl := blank_cases hblank <;> exact absurd hc (by decide)
      · rintro rfl
        exact absurd hc (by decide)
  | string h =>
    obtain ⟨body, rfl⟩ := h.starts
    exact ⟨_, _, rfl, by decide, by decide⟩

theorem readValue_plain (hcs : skipBlanks cs = c :: rest) (hbracket : c ≠ '[') (hbrace : c ≠ '\x7b') :
    readValue (n + 1) cs = readPlain (c :: rest) := by
  rw [readValue, hcs]
  split
  · next h => exact absurd (List.cons.inj h).1 hbracket
  · next h => exact absurd (List.cons.inj h).1 hbrace
  · rfl

theorem readPlain_number (h : Number cs) (hrest : Stops goesOn rest) :
    readPlain (cs ++ rest) = some (.number cs, rest) := by
  have hread := readNumber_append h hrest
  obtain ⟨c, more, rfl, hc⟩ := h.starts
  rw [List.cons_append] at hread ⊢
  rw [readPlain, hread]
  · rfl
  all_goals
    intro more' h
    rw [(List.cons.inj h).1] at hc
    exact absurd hc (by decide)

theorem readKey_append {right : List Char} (hleft : Blanks left) (hkey : Quoted key cs) (hright : Blanks right) :
    readKey (left ++ cs ++ right ++ ':' :: rest) = some (key, rest) := by
  obtain ⟨body, rfl⟩ := hkey.starts
  have hcolon : skipBlanks (right ++ ':' :: rest) = ':' :: rest := skipBlanks_append hright (by simp; decide)
  rw [List.append_assoc, List.append_assoc, readKey, skipBlanks_append hleft (by simp; decide)]
  simp [afterChar, readString_append hkey, hcolon]

theorem readItems_skipBlanks : readItems n (skipBlanks cs) = readItems n cs := by
  cases n with
  | zero => rfl
  | succ n =>
    cases n with
    | zero => simp [readItems, readValue]
    | succ n => simp [readItems, readValue]

theorem readFields_skipBlanks : readFields n (skipBlanks cs) = readFields n cs := by
  cases n with
  | zero => rfl
  | succ n => simp [readFields, readKey]

theorem readValue_noItems {more : List Char} (hcs : skipBlanks cs = '[' :: rest)
    (hrest : skipBlanks rest = ']' :: more) : readValue (n + 1) cs = some (.array [], more) := by
  simp [readValue, hcs, hrest]

theorem readValue_items (hcs : skipBlanks cs = '[' :: rest) (hrest : ∀ more, skipBlanks rest ≠ ']' :: more) :
    readValue (n + 1) cs = (readItems n rest).map (fun (vs, rest) => (.array vs, rest)) := by
  simp only [readValue, hcs, readItems_skipBlanks]

theorem readValue_noFields {more : List Char} (hcs : skipBlanks cs = '\x7b' :: rest)
    (hrest : skipBlanks rest = '\x7d' :: more) : readValue (n + 1) cs = some (.object [], more) := by
  simp [readValue, hcs, hrest]

theorem readValue_fields (hcs : skipBlanks cs = '\x7b' :: rest) (hrest : ∀ more, skipBlanks rest ≠ '\x7d' :: more) :
    readValue (n + 1) cs = (readFields n rest).map (fun (es, rest) => (.object es, rest)) := by
  simp only [readValue, hcs, readFields_skipBlanks]

theorem Item.skipBlanks_ne (h : Item v cs) : ∀ more, skipBlanks (cs ++ rest) ≠ ']' :: more := by
  obtain @⟨_, left, cs, right, hleft, h, -⟩ := h
  obtain ⟨c, tail, rfl, hblank, hbracket⟩ := h.starts
  intro more heq
  rw [List.append_assoc, List.append_assoc, skipBlanks_append hleft (by simpa using hblank)] at heq
  exact hbracket (List.cons.inj heq).1

theorem Items.skipBlanks_ne (h : Items vs cs) : ∀ more, skipBlanks (cs ++ rest) ≠ ']' :: more := by
  cases h with
  | one h => exact h.skipBlanks_ne
  | more h _ =>
    rw [List.append_assoc]
    exact h.skipBlanks_ne

theorem Entry.skipBlanks_ne {e : Option String × JsonValue} (h : Entry e cs) :
    ∀ more, skipBlanks (cs ++ rest) ≠ '\x7d' :: more := by
  obtain @⟨_, _, left, cs, right, value, hleft, hkey, -, -⟩ := h
  obtain ⟨body, rfl⟩ := hkey.starts
  intro more heq
  simp only [List.append_assoc] at heq
  rw [skipBlanks_append hleft (by simp; decide)] at heq
  exact absurd (List.cons.inj heq).1 (by decide)

theorem Fields.skipBlanks_ne (h : Fields es cs) : ∀ more, skipBlanks (cs ++ rest) ≠ '\x7d' :: more := by
  cases h with
  | one h => exact h.skipBlanks_ne
  | more h _ =>
    rw [List.append_assoc]
    exact h.skipBlanks_ne

/-- What is spelled is read in so many steps: two for a character, and one for the items or the fields. -/
structure Completeness (n : Nat) : Prop where
  value {v : JsonValue} {cs rest text : List Char} (h : Spelled v cs) (htext : skipBlanks text = cs ++ rest)
    (hrest : Stops goesOn rest) (hn : 2 * cs.length ≤ n) : readValue n text = some (v, rest)
  items {vs : List JsonValue} {cs rest : List Char} (h : Items vs cs) (hn : 2 * cs.length + 1 ≤ n) :
    readItems n (cs ++ ']' :: rest) = some (vs, rest)
  fields {es : List (Option String × JsonValue)} {cs rest : List Char} (h : Fields es cs)
    (hn : 2 * cs.length + 1 ≤ n) : readFields n (cs ++ '\x7d' :: rest) = some (es, rest)

theorem Completeness.item (ih : Completeness n) (rest : List Char) (h : Item v cs) (hrest : Stops goesOn rest)
    (hblank : Stops isBlank rest) (hn : 2 * cs.length ≤ n) :
    ∃ rest', readValue n (cs ++ rest) = some (v, rest') ∧ skipBlanks rest' = rest := by
  obtain @⟨_, left, cs, right, hleft, h, hright⟩ := h
  refine ⟨right ++ rest, ?_, skipBlanks_append hright hblank⟩
  simp only [List.length_append] at hn
  refine ih.value h ?_ (hright.stops hrest) (by omega)
  obtain ⟨c, more, rfl, hc, -⟩ := h.starts
  rw [List.append_assoc, List.append_assoc, skipBlanks_append hleft (by simpa using hc)]

theorem readValue_spelled {text : List Char} (ih : Completeness n) (h : Spelled v cs)
    (htext : skipBlanks text = cs ++ rest) (hrest : Stops goesOn rest) (hn : 2 * cs.length ≤ n + 1) :
    readValue (n + 1) text = some (v, rest) := by
  have hword (word : List Char) : afterWord word (word ++ rest) = some rest := afterWord_eq_some_iff.mpr rfl
  cases h with
  | null =>
    rw [readValue_plain htext (by decide) (by decide)]
    exact congrArg (Option.map _) (hword "null".toList)
  | yes =>
    rw [readValue_plain htext (by decide) (by decide)]
    exact congrArg (Option.map _) (hword "true".toList)
  | no =>
    rw [readValue_plain htext (by decide) (by decide)]
    exact congrArg (Option.map _) (hword "false".toList)
  | number h =>
    have hread := readPlain_number h hrest
    obtain ⟨c, more, rfl, hc⟩ := h.starts
    rw [List.cons_append] at htext hread
    rw [readValue_plain htext, hread]
    all_goals
      rintro rfl
      exact absurd hc (by decide)
  | string h =>
    obtain ⟨body, rfl⟩ := h.starts
    rw [readValue_plain htext (by decide) (by decide), readPlain]
    exact congrArg (Option.map _) (readString_append h)
  | @noItems gap hgap =>
    refine readValue_noItems htext ?_
    have hclose : skipBlanks (gap ++ ']' :: rest) = ']' :: rest := skipBlanks_append hgap (by simp; decide)
    simpa using hclose
  | @items vs cs h =>
    simp only [List.length_cons, List.length_append, List.length_nil] at hn
    simp only [List.cons_append, List.append_assoc, List.nil_append] at htext
    rw [readValue_items htext h.skipBlanks_ne, ih.items h (by omega)]
    rfl
  | @noFields gap hgap =>
    refine readValue_noFields htext ?_
    have hclose : skipBlanks (gap ++ '\x7d' :: rest) = '\x7d' :: rest := skipBlanks_append hgap (by simp; decide)
    simpa using hclose
  | @fields es cs h =>
    simp only [List.length_cons, List.length_append, List.length_nil] at hn
    simp only [List.cons_append, List.append_assoc, List.nil_append] at htext
    rw [readValue_fields htext h.skipBlanks_ne, ih.fields h (by omega)]
    rfl

theorem readItems_spelled (ih : Completeness n) (h : Items vs cs) (hn : 2 * cs.length ≤ n) :
    readItems (n + 1) (cs ++ ']' :: rest) = some (vs, rest) := by
  cases h with
  | one h =>
    obtain ⟨rest', hread, hskip⟩ := ih.item (']' :: rest) h (by simp; decide) (by simp; decide) hn
    simp [readItems, hread, hskip]
  | @more v vs cs tail h htail =>
    simp only [List.length_cons, List.length_append] at hn
    obtain ⟨rest', hread, hskip⟩ :=
      ih.item (',' :: (tail ++ ']' :: rest)) h (by simp; decide) (by simp; decide) (by omega)
    have hmore : readItems n (tail ++ ']' :: rest) = some (vs, rest) := ih.items htail (by omega)
    simp [readItems, hread, hskip, hmore]

theorem Completeness.entry (ih : Completeness n) (rest : List Char) (h : Entry (key, v) cs) (hrest : Stops goesOn rest)
    (hblank : Stops isBlank rest) (hn : 2 * cs.length ≤ n) :
    ∃ value rest', readKey (cs ++ rest) = some (key, value) ∧ readValue n value = some (v, rest') ∧
      skipBlanks rest' = rest := by
  obtain @⟨_, _, left, cs, right, value, hleft, hkey, hright, h⟩ := h
  simp only [List.length_append, List.length_cons] at hn
  obtain ⟨rest', hread, hskip⟩ := ih.item rest h hrest hblank (by omega)
  refine ⟨value ++ rest, rest', ?_, hread, hskip⟩
  have hkeyed : readKey (left ++ cs ++ right ++ ':' :: (value ++ rest)) = some (key, value ++ rest) :=
    readKey_append hleft hkey hright
  simpa using hkeyed

theorem readFields_spelled (ih : Completeness n) (h : Fields es cs) (hn : 2 * cs.length ≤ n) :
    readFields (n + 1) (cs ++ '\x7d' :: rest) = some (es, rest) := by
  cases h with
  | @one e _ h =>
    obtain ⟨value, rest', hkey, hread, hskip⟩ :=
      ih.entry ('\x7d' :: rest) h (by simp; decide) (by simp; decide) hn
    simp [readFields, hkey, hread, hskip]
  | @more e es cs tail h htail =>
    simp only [List.length_cons, List.length_append] at hn
    obtain ⟨value, rest', hkey, hread, hskip⟩ :=
      ih.entry (',' :: (tail ++ '\x7d' :: rest)) h (by simp; decide) (by simp; decide) (by omega)
    have hmore : readFields n (tail ++ '\x7d' :: rest) = some (es, rest) := ih.fields htail (by omega)
    simp [readFields, hkey, hread, hskip, hmore]

theorem completeness (n : Nat) : Completeness n := by
  induction n with
  | zero =>
    refine ⟨fun h _ _ hn => ?_, fun _ hn => absurd hn (by omega), fun _ hn => absurd hn (by omega)⟩
    obtain ⟨c, more, rfl, -, -⟩ := h.starts
    simp at hn
  | succ n ih =>
    exact ⟨readValue_spelled ih, fun h hn => readItems_spelled ih h (by omega),
      fun h hn => readFields_spelled ih h (by omega)⟩

theorem spelled_of_readPlain (h : readPlain cs = some (v, rest)) : ∃ body, cs = body ++ rest ∧ Spelled v body := by
  rw [readPlain.eq_def] at h
  split at h
  all_goals
    obtain ⟨x, hread, h⟩ := Option.map_eq_some_iff.mp h
    obtain ⟨rfl, rfl⟩ := Prod.mk.inj h
  · obtain ⟨body, rfl, hquoted⟩ := quoted_of_readString hread
    exact ⟨_, rfl, .string hquoted⟩
  · exact ⟨_, afterWord_eq_some_iff.mp hread, .null⟩
  · exact ⟨_, afterWord_eq_some_iff.mp hread, .yes⟩
  · exact ⟨_, afterWord_eq_some_iff.mp hread, .no⟩
  · obtain ⟨rfl, hnumber⟩ := number_of_readNumber hread
    exact ⟨_, rfl, .number hnumber⟩

theorem quoted_of_readKey (h : readKey cs = some (key, rest)) :
    ∃ left body right, cs = left ++ body ++ right ++ ':' :: rest ∧ Blanks left ∧ Quoted key body ∧ Blanks right := by
  simp only [readKey, Option.bind_eq_bind, Option.bind_eq_some_iff, Option.pure_def, Option.some.injEq, Prod.exists,
    Prod.mk.injEq, afterChar_eq_some_iff] at h
  obtain ⟨string, hquote, key, tail, hstring, _, hcolon, rfl, rfl⟩ := h
  obtain ⟨body, rfl, hquoted⟩ := quoted_of_readString hstring
  obtain ⟨left, hleft, hcs⟩ := exists_skipBlanks cs
  obtain ⟨right, hright, htail⟩ := exists_skipBlanks tail
  refine ⟨left, _, right, ?_, hleft, hquoted, hright⟩
  rw [hcs, hquote, htail, hcolon]
  simp

structure Soundness (n : Nat) : Prop where
  value {v : JsonValue} {cs rest : List Char} (h : readValue n cs = some (v, rest)) :
    ∃ left body, cs = left ++ body ++ rest ∧ Blanks left ∧ Spelled v body
  items {vs : List JsonValue} {cs rest : List Char} (h : readItems n cs = some (vs, rest)) :
    ∃ body, cs = body ++ ']' :: rest ∧ Items vs body
  fields {es : List (Option String × JsonValue)} {cs rest : List Char} (h : readFields n cs = some (es, rest)) :
    ∃ body, cs = body ++ '\x7d' :: rest ∧ Fields es body

theorem Soundness.item (ih : Soundness n) (h : readValue n cs = some (v, rest)) :
    ∃ body, cs = body ++ skipBlanks rest ∧ Item v body := by
  obtain ⟨left, body, rfl, hleft, hspelled⟩ := ih.value h
  obtain ⟨right, hright, hrest⟩ := exists_skipBlanks rest
  refine ⟨left ++ body ++ right, ?_, .intro hleft hspelled hright⟩
  rw [List.append_assoc _ right, ← hrest]

theorem spelled_of_readValue (ih : Soundness n) (h : readValue (n + 1) cs = some (v, rest)) :
    ∃ left body, cs = left ++ body ++ rest ∧ Blanks left ∧ Spelled v body := by
  obtain ⟨left, hleft, hcs⟩ := exists_skipBlanks cs
  have hspelled : ∃ body, skipBlanks cs = body ++ rest ∧ Spelled v body := by
    rw [readValue] at h
    split at h
    · next inner hskip =>
      obtain ⟨gap, hgap, hinner⟩ := exists_skipBlanks inner
      split at h
      · next hclose =>
        obtain ⟨rfl, rfl⟩ := Prod.mk.inj (Option.some.inj h)
        refine ⟨_, ?_, .noItems hgap⟩
        rw [hskip, hinner, hclose]
        simp
      · rw [readItems_skipBlanks] at h
        obtain ⟨⟨vs, _⟩, hread, h⟩ := Option.map_eq_some_iff.mp h
        obtain ⟨rfl, rfl⟩ := Prod.mk.inj h
        obtain ⟨body, rfl, hitems⟩ := ih.items hread
        exact ⟨_, by simp [hskip], .items hitems⟩
    · next inner hskip =>
      obtain ⟨gap, hgap, hinner⟩ := exists_skipBlanks inner
      split at h
      · next hclose =>
        obtain ⟨rfl, rfl⟩ := Prod.mk.inj (Option.some.inj h)
        refine ⟨_, ?_, .noFields hgap⟩
        rw [hskip, hinner, hclose]
        simp
      · rw [readFields_skipBlanks] at h
        obtain ⟨⟨es, _⟩, hread, h⟩ := Option.map_eq_some_iff.mp h
        obtain ⟨rfl, rfl⟩ := Prod.mk.inj h
        obtain ⟨body, rfl, hfields⟩ := ih.fields hread
        exact ⟨_, by simp [hskip], .fields hfields⟩
    · exact spelled_of_readPlain h
  obtain ⟨body, hskip, hspelled⟩ := hspelled
  exact ⟨left, body, by rw [List.append_assoc, ← hskip, ← hcs], hleft, hspelled⟩

theorem items_of_readItems (ih : Soundness n) (h : readItems (n + 1) cs = some (vs, rest)) :
    ∃ body, cs = body ++ ']' :: rest ∧ Items vs body := by
  rw [readItems, Option.bind_eq_bind, Option.bind_eq_some_iff] at h
  obtain ⟨⟨v, tail⟩, hread, h⟩ := h
  obtain ⟨body, rfl, hitem⟩ := ih.item hread
  dsimp only at h
  split at h
  · next more hskip =>
    simp only [Option.bind_eq_bind, Option.bind_eq_some_iff, Option.pure_def, Option.some.injEq, Prod.exists,
      Prod.mk.injEq] at h
    obtain ⟨vs, _, hmore, rfl, rfl⟩ := h
    obtain ⟨tail', rfl, hitems⟩ := ih.items hmore
    exact ⟨_, by simp [hskip], .more hitem hitems⟩
  · next hskip =>
    obtain ⟨rfl, rfl⟩ := Prod.mk.inj (Option.some.inj h)
    exact ⟨body, by rw [hskip], .one hitem⟩
  · cases h

theorem fields_of_readFields (ih : Soundness n) (h : readFields (n + 1) cs = some (es, rest)) :
    ∃ body, cs = body ++ '\x7d' :: rest ∧ Fields es body := by
  simp only [readFields, Option.bind_eq_bind, Option.bind_eq_some_iff, Prod.exists] at h
  obtain ⟨key, value, hkey, v, tail, hread, h⟩ := h
  obtain ⟨left, quoted, right, rfl, hleft, hquoted, hright⟩ := quoted_of_readKey hkey
  obtain ⟨body, rfl, hitem⟩ := ih.item hread
  have hentry : Entry (key, v) (left ++ quoted ++ right ++ ':' :: body) := .intro hleft hquoted hright hitem
  split at h
  · next more hskip =>
    simp only [Option.bind_eq_some_iff, Option.pure_def, Option.some.injEq, Prod.exists, Prod.mk.injEq] at h
    obtain ⟨es, _, hmore, rfl, rfl⟩ := h
    obtain ⟨tail', rfl, hfields⟩ := ih.fields hmore
    exact ⟨_, by simp [hskip], .more hentry hfields⟩
  · next hskip =>
    obtain ⟨rfl, rfl⟩ := Prod.mk.inj (Option.some.inj h)
    exact ⟨_, by simp [hskip], .one hentry⟩
  · cases h

theorem soundness (n : Nat) : Soundness n := by
  induction n with
  | zero =>
    constructor
    · intro v cs rest h
      rw [readValue] at h
      cases h
    · intro vs cs rest h
      rw [readItems] at h
      cases h
    · intro es cs rest h
      rw [readFields] at h
      cases h
  | succ n ih => exact ⟨spelled_of_readValue ih, items_of_readItems ih, fields_of_readFields ih⟩

theorem read_eq_some_iff : read cs = some v ↔ Item v cs := by
  constructor
  · intro h
    simp only [read, Option.bind_eq_bind, Option.bind_eq_some_iff, Prod.exists, Option.ite_none_right_eq_some,
      Option.pure_def, Option.some.injEq] at h
    obtain ⟨v, rest, hread, hrest, rfl⟩ := h
    obtain ⟨body, rfl, hitem⟩ := (soundness _).item hread
    rwa [hrest, List.append_nil]
  · intro h
    have hlength : 2 * cs.length ≤ 2 * cs.length + 2 := by omega
    obtain ⟨rest, hread, hrest⟩ := (completeness _).item [] h (by simp) (by simp) hlength
    rw [List.append_nil] at hread
    simp [read, hread, hrest]

theorem Item.unique {w : JsonValue} (hv : Item v cs) (hw : Item w cs) : v = w :=
  Option.some.inj ((read_eq_some_iff.mpr hv).symm.trans (read_eq_some_iff.mpr hw))

end NativeBuild.JsonValue
