import NativeBuild.Settings.Basic

namespace NativeBuild.Settings

inductive Key where
  | os
  | arch
  | libc
  | stdlib
  | deterministic
  | printCommands
  | home
  | lib
  | ld
  | objcopy
  | frontEnd
  | codegen
  deriving DecidableEq, Repr

def Key.Value : Key → Type
  | .os | .arch | .libc | .stdlib => Option String
  | .deterministic | .printCommands => Bool
  | .lib => List Path
  | .home | .ld | .objcopy | .frontEnd | .codegen => Option Path

def Key.absent : (k : Key) → k.Value
  | .os | .arch | .libc | .stdlib => (none : Option String)
  | .deterministic | .printCommands => false
  | .lib => ([] : List Path)
  | .home | .ld | .objcopy | .frontEnd | .codegen => (none : Option Path)

def kept (s : Settings) : (k : Key) → k.Value
  | .os => s.build.os
  | .arch => s.build.arch
  | .libc => s.build.libc
  | .stdlib => s.build.stdlib
  | .deterministic => s.build.deterministic
  | .printCommands => s.build.printCommands
  | .home => s.tools.home
  | .lib => s.tools.lib
  | .ld => s.tools.ld
  | .objcopy => s.tools.objcopy
  | .frontEnd => s.tools.frontEnd
  | .codegen => s.tools.codegen

variable {a b c s : Settings} {layers : List Settings} {k : Key}

theorem ext_kept (h : ∀ k, a.kept k = b.kept k) : a = b := by
  obtain ⟨⟨os, arch, libc, stdlib, deterministic, printCommands⟩,
    ⟨home, lib, ld, objcopy, frontEnd, codegen⟩⟩ := a
  obtain rfl : os = _ := h .os
  obtain rfl : arch = _ := h .arch
  obtain rfl : libc = _ := h .libc
  obtain rfl : stdlib = _ := h .stdlib
  obtain rfl : deterministic = _ := h .deterministic
  obtain rfl : printCommands = _ := h .printCommands
  obtain rfl : home = _ := h .home
  obtain rfl : lib = _ := h .lib
  obtain rfl : ld = _ := h .ld
  obtain rfl : objcopy = _ := h .objcopy
  obtain rfl : frontEnd = _ := h .frontEnd
  obtain rfl : codegen = _ := h .codegen
  rfl

theorem kept_default (k : Key) : ({} : Settings).kept k = k.absent := by cases k <;> rfl

theorem kept_merge_of_absent (h : b.kept k = k.absent) : (a.merge b).kept k = a.kept k := by
  have hor {α : Type} {x y : Option α} (hy : y = none) : y.or x = x := by rw [hy, Option.none_or]
  have hflag {x y : Bool} (hy : y = false) : (x || y) = x := by rw [hy, Bool.or_false]
  cases k with
  | os | arch | libc | stdlib | home | ld | objcopy | frontEnd | codegen => exact hor h
  | deterministic | printCommands => exact hflag h
  | lib => exact if_pos h

theorem kept_merge_of_ne (h : b.kept k ≠ k.absent) : (a.merge b).kept k = b.kept k := by
  have hor {α : Type} {x y : Option α} (hy : y ≠ none) : y.or x = y := by
    obtain ⟨z, rfl⟩ := Option.ne_none_iff_exists'.mp hy
    rfl
  have hflag {x y : Bool} (hy : y ≠ false) : (x || y) = y := by
    rw [Bool.ne_false_iff.mp hy, Bool.or_true]
  cases k with
  | os | arch | libc | stdlib | home | ld | objcopy | frontEnd | codegen => exact hor h
  | deterministic | printCommands => exact hflag h
  | lib => exact if_neg h

theorem merge_default (s : Settings) : s.merge {} = s :=
  ext_kept fun k => kept_merge_of_absent (kept_default k)

theorem default_merge (s : Settings) : ({} : Settings).merge s = s := by
  refine ext_kept fun k => ?_
  by_cases h : s.kept k = k.absent
  · rw [kept_merge_of_absent h, kept_default, h]
  · exact kept_merge_of_ne h

theorem merge_assoc (a b c : Settings) : (a.merge b).merge c = a.merge (b.merge c) := by
  refine ext_kept fun k => ?_
  by_cases hc : c.kept k = k.absent
  · rw [kept_merge_of_absent hc]
    have hbc : (b.merge c).kept k = b.kept k := kept_merge_of_absent hc
    by_cases hb : b.kept k = k.absent
    · rw [kept_merge_of_absent hb, kept_merge_of_absent (hbc.trans hb)]
    · rw [kept_merge_of_ne hb, kept_merge_of_ne (hbc.symm ▸ hb), hbc]
  · have hbc : (b.merge c).kept k = c.kept k := kept_merge_of_ne hc
    rw [kept_merge_of_ne hc, kept_merge_of_ne (hbc.symm ▸ hc), hbc]

/-- A part of settings that merging takes from the later ones, where they say something of it. -/
structure Overlaid {α : Type} (part : Settings → α) (absent : α) : Prop where
  default : part {} = absent
  silent : ∀ a b : Settings, part b = absent → part (a.merge b) = part a
  said : ∀ a b : Settings, part b ≠ absent → part (a.merge b) = part b

theorem kept_overlaid (k : Key) : Overlaid (·.kept k) k.absent :=
  ⟨kept_default k, fun _ _ => kept_merge_of_absent, fun _ _ => kept_merge_of_ne⟩

def layered (layers : List Settings) : Settings := layers.foldl merge {}

section
variable {α : Type} {part : Settings → α} {absent : α}

def Unsaid (part : Settings → α) (absent : α) (layers : List Settings) : Prop := ∀ s ∈ layers, part s = absent

structure LastSaid (part : Settings → α) (absent : α) (layers : List Settings) (v : α) : Prop where
  said : v ≠ absent
  last : ∃ before layer after, layers = before ++ layer :: after ∧ part layer = v ∧ Unsaid part absent after

theorem Overlaid.foldl_of_unsaid (h : Overlaid part absent) (hunsaid : Unsaid part absent layers) (s : Settings) :
    part (layers.foldl merge s) = part s := by
  induction layers generalizing s with
  | nil => rfl
  | cons layer layers ih =>
    obtain ⟨hlayer, hlayers⟩ := List.forall_mem_cons.mp hunsaid
    rw [List.foldl_cons, ih hlayers, h.silent s layer hlayer]

theorem Overlaid.layered_of_unsaid (h : Overlaid part absent) (hunsaid : Unsaid part absent layers) :
    part (layered layers) = absent := by
  rw [layered, h.foldl_of_unsaid hunsaid, h.default]

theorem Overlaid.layered_of_lastSaid {v : α} (h : Overlaid part absent) (hlast : LastSaid part absent layers v) :
    part (layered layers) = v := by
  obtain ⟨hsaid, before, layer, after, rfl, rfl, hafter⟩ := hlast
  rw [layered, List.foldl_append, List.foldl_cons, h.foldl_of_unsaid hafter, h.said _ layer hsaid]

theorem unsaid_or_lastSaid (part : Settings → α) (absent : α) (layers : List Settings) :
    Unsaid part absent layers ∨ ∃ v, LastSaid part absent layers v := by
  induction layers with
  | nil => exact .inl (List.forall_mem_nil _)
  | cons layer layers ih =>
    obtain hnone | ⟨v, hsaid, before, last, after, rfl, hlast⟩ := ih
    · by_cases hlayer : part layer = absent
      · exact .inl (List.forall_mem_cons.mpr ⟨hlayer, hnone⟩)
      · exact .inr ⟨_, hlayer, [], layer, layers, rfl, rfl, hnone⟩
    · exact .inr ⟨v, hsaid, layer :: before, last, after, rfl, hlast⟩

end

end NativeBuild.Settings
