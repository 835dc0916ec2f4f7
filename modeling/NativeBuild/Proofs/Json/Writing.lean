import Mathlib.Tactic.SplitIfs
import NativeBuild.Proofs.Json.Grammar

namespace NativeBuild.JsonValue

inductive Proper : JsonValue → Prop
  | null : Proper .null
  | bool (b : Bool) : Proper (.bool b)
  | number {cs : List Char} (h : Number cs) : Proper (.number cs)
  | string (s : Option String) : Proper (.string s)
  | array {vs : List JsonValue} (h : ∀ v ∈ vs, Proper v) : Proper (.array vs)
  | object {es : List (Option String × JsonValue)} (h : ∀ e ∈ es, Proper e.2) : Proper (.object es)

variable {cs : List Char} {c : Char} {v : JsonValue} {vs : List JsonValue} {es : List (Option String × JsonValue)}

theorem unitSpelled_escape : UnitSpelled c.toNat (escape c) := by
  have hzero : Text.hexValue? '0' = some 0 := by decide
  unfold escape
  split_ifs with hquote hbackslash hb hf hn hr ht hcontrol
  · subst hquote
    exact .short rfl
  · subst hbackslash
    exact .short rfl
  · subst hb
    exact .short rfl
  · subst hf
    exact .short rfl
  · subst hn
    exact .short rfl
  · subst hr
    exact .short rfl
  · subst ht
    exact .short rfl
  · have hunit := UnitSpelled.hex hzero hzero (Text.hexValue?_hexDigit (n := c.toNat / 16) (by omega))
      (Text.hexValue?_hexDigit (n := c.toNat % 16) (by omega))
    rwa [show 16 * (16 * (16 * 0 + 0) + c.toNat / 16) + c.toNat % 16 = c.toNat by omega] at hunit
  · exact .itself (by omega) hquote hbackslash

theorem unitsSpelled_escape : UnitsSpelled (cs.map Char.toNat) (cs.flatMap escape) := by
  induction cs with
  | nil => exact .nil
  | cons c cs ih => exact .cons unitSpelled_escape ih

theorem textUnits_toNat : TextUnits cs (cs.map Char.toNat) := by
  induction cs with
  | nil => exact .nil
  | cons c cs ih => exact .one ih

theorem not_textUnits_half : ¬ TextUnits cs [0xd800] := by
  intro h
  have hjoin := joinHalves_textUnits h
  simp [joinHalves, isHighHalf] at hjoin

theorem quoted_quotedText (s : Option String) : Quoted s (quotedText s) := by
  cases s with
  | some s => exact .text unitsSpelled_escape textUnits_toNat
  | none =>
    have hhalf : UnitSpelled 0xd800 ['\\', 'u', 'd', '8', '0', '0'] :=
      .hex (i := 13) (j := 8) (k := 0) (l := 0) (by decide) (by decide) (by decide) (by decide)
    exact .noText (.cons hhalf .nil) fun _ => not_textUnits_half

theorem item_of_spelled (h : Spelled v cs) : Item v cs := by
  have hitem : Item v ([] ++ cs ++ []) := .intro (List.forall_mem_nil _) h (List.forall_mem_nil _)
  simpa using hitem

theorem items_writtenItems (hne : vs ≠ []) (h : ∀ v ∈ vs, Spelled v v.written) : Items vs (writtenItems vs) := by
  induction vs with
  | nil => exact absurd rfl hne
  | cons v vs ih =>
    obtain ⟨hv, hvs⟩ := List.forall_mem_cons.mp h
    cases vs with
    | nil => exact .one (item_of_spelled hv)
    | cons w vs => exact .more (item_of_spelled hv) (ih (List.cons_ne_nil w vs) hvs)

theorem entry_written {e : Option String × JsonValue} (h : Spelled e.2 e.2.written) :
    Entry e (quotedText e.1 ++ ':' :: e.2.written) := by
  obtain ⟨key, v⟩ := e
  have hentry : Entry (key, v) ([] ++ quotedText key ++ [] ++ ':' :: v.written) :=
    .intro (List.forall_mem_nil _) (quoted_quotedText key) (List.forall_mem_nil _) (item_of_spelled h)
  simpa using hentry

theorem fields_writtenFields (hne : es ≠ []) (h : ∀ e ∈ es, Spelled e.2 e.2.written) :
    Fields es (writtenFields es) := by
  induction es with
  | nil => exact absurd rfl hne
  | cons e es ih =>
    obtain ⟨he, hes⟩ := List.forall_mem_cons.mp h
    cases es with
    | nil => exact .one (entry_written he)
    | cons f es => exact .more (entry_written he) (ih (List.cons_ne_nil f es) hes)

theorem Proper.spelled_written (h : Proper v) : Spelled v v.written := by
  induction h with
  | null => exact .null
  | bool b =>
    cases b with
    | true => exact .yes
    | false => exact .no
  | number h => exact .number h
  | string s => exact .string (quoted_quotedText s)
  | @array vs _ ih =>
    by_cases hne : vs = []
    · subst hne
      exact .noItems (List.forall_mem_nil _)
    · exact .items (items_writtenItems hne ih)
  | @object es _ ih =>
    by_cases hne : es = []
    · subst hne
      exact .noFields (List.forall_mem_nil _)
    · exact .fields (fields_writtenFields hne ih)

theorem read_written (h : Proper v) : read v.written = some v :=
  read_eq_some_iff.mpr (item_of_spelled h.spelled_written)

theorem proper_ofTexts (ss : List String) : Proper (.ofTexts ss) := by
  refine .array fun v hv => ?_
  obtain ⟨s, -, rfl⟩ := List.mem_map.mp hv
  exact .string (some s)

theorem proper_ofFields {es : List (String × JsonValue)} (h : ∀ e ∈ es, Proper e.2) : Proper (.ofFields es) := by
  refine .object fun e he => ?_
  obtain ⟨f, hf, rfl⟩ := List.mem_map.mp he
  exact h f hf

end NativeBuild.JsonValue
