import NativeBuild.Text.Blank
import NativeBuild.Text.Decimal
import NativeBuild.Text.Run
import NativeBuild.Text.Word

namespace NativeBuild.Text

structure IsRun (p : Char → Bool) (run : List Char) : Prop where
  nonempty : run ≠ []
  all : ∀ c ∈ run, p c = true

instance (p : Char → Bool) (run : List Char) : Decidable (IsRun p run) :=
  decidable_of_iff (run ≠ [] ∧ run.all p = true)
    ⟨fun h => ⟨h.1, List.all_eq_true.mp h.2⟩, fun h => ⟨h.nonempty, List.all_eq_true.mpr h.all⟩⟩

def Stops (p : Char → Bool) (rest : List Char) : Prop := ∀ c ∈ rest.head?, p c = false

instance (p : Char → Bool) (rest : List Char) : Decidable (Stops p rest) :=
  Option.decidableForallMem rest.head?

variable {p q : Char → Bool} {run rest cs : List Char} {c : Char}

@[simp] theorem stops_nil : Stops p [] := by simp [Stops]

@[simp] theorem stops_cons : Stops p (c :: cs) ↔ p c = false := by simp [Stops]

theorem stops_append (hrun : Stops p run) (hrest : Stops p rest) : Stops p (run ++ rest) := by
  cases run with
  | nil => exact hrest
  | cons c run => simpa using hrun

theorem stops_of_all (h : ∀ c ∈ cs, p c = false) : Stops p cs := by
  cases cs with
  | nil => exact stops_nil
  | cons c cs => simpa using h c List.mem_cons_self

theorem IsRun.stops (h : IsRun q run) (hpq : ∀ c, q c = true → p c = false) : Stops p (run ++ rest) := by
  obtain ⟨c, run', rfl⟩ := List.exists_cons_of_ne_nil h.nonempty
  simpa using hpq c (h.all c List.mem_cons_self)

theorem IsRun.not_mem (h : IsRun p run) (hc : p c = false) : c ∉ run := by
  intro hmem
  rw [h.all c hmem] at hc
  cases hc

theorem stops_dropWhile : Stops p (cs.dropWhile p) := by
  intro c hc
  have hhead := List.head?_dropWhile_not p cs
  rw [Option.mem_def.mp hc] at hhead
  simpa using hhead

theorem takeWhile_append_of_stops (hrun : ∀ c ∈ run, p c = true) (hrest : Stops p rest) :
    (run ++ rest).takeWhile p = run := by
  rw [List.takeWhile_append_of_pos hrun]
  cases rest with
  | nil => simp
  | cons c rest => simp_all

theorem dropWhile_append_of_stops (hrun : ∀ c ∈ run, p c = true) (hrest : Stops p rest) :
    (run ++ rest).dropWhile p = rest := by
  rw [List.dropWhile_append_of_pos hrun]
  cases rest with
  | nil => rfl
  | cons c rest => simp_all

theorem takeRun_append (hrun : IsRun p run) (hrest : Stops p rest) :
    takeRun p (run ++ rest) = some (run, rest) := by
  rw [takeRun, takeWhile_append_of_stops hrun.all hrest, dropWhile_append_of_stops hrun.all hrest]
  obtain ⟨c, run', rfl⟩ := List.exists_cons_of_ne_nil hrun.nonempty
  rfl

theorem isRun_of_takeRun (h : takeRun p cs = some (run, rest)) : cs = run ++ rest ∧ IsRun p run := by
  obtain ⟨hcs, hne, hall⟩ := takeRun_eq_some h
  exact ⟨hcs, hne, hall⟩

theorem afterRun_append (hrun : IsRun p run) (hrest : Stops p rest) : afterRun p (run ++ rest) = some rest := by
  rw [afterRun, takeRun_append hrun hrest]
  rfl

theorem isRun_of_afterRun (h : afterRun p cs = some rest) : ∃ run, cs = run ++ rest ∧ IsRun p run := by
  obtain ⟨⟨run, rest'⟩, hrun, rfl⟩ := Option.map_eq_some_iff.mp h
  exact ⟨run, isRun_of_takeRun hrun⟩

theorem stops_trimStart : Stops isBlank (trimStart cs) := stops_dropWhile

theorem trimStart_append (hrun : ∀ c ∈ run, isBlank c = true) (hrest : Stops isBlank rest) :
    trimStart (run ++ rest) = rest := dropWhile_append_of_stops hrun hrest

theorem trimStart_of_stops (h : Stops isBlank cs) : trimStart cs = cs :=
  trimStart_append (List.forall_mem_nil _) h

theorem exists_trimStart (cs : List Char) : ∃ gap, (∀ c ∈ gap, isBlank c = true) ∧ cs = gap ++ trimStart cs := by
  refine ⟨cs.takeWhile isBlank, fun c hc => ?_, List.takeWhile_append_dropWhile.symm⟩
  exact List.all_eq_true.mp List.all_takeWhile c hc

theorem mem_of_mem_trimStart (h : c ∈ trimStart cs) : c ∈ cs := (List.dropWhile_sublist _).mem h

theorem mem_of_mem_trimEnd (h : c ∈ trimEnd cs) : c ∈ cs := by
  rw [trimEnd, List.mem_reverse] at h
  exact List.mem_reverse.mp ((List.dropWhile_sublist _).mem h)

theorem trimEnd_append (h : isBlank c = false) : trimEnd (run ++ c :: rest) = run ++ c :: trimEnd rest := by
  have hsplit : (run ++ c :: rest).reverse = rest.reverse ++ (c :: run.reverse) := by simp
  rw [trimEnd, trimEnd, hsplit, List.dropWhile_append]
  split
  · next hnil => simp [h, List.isEmpty_iff.mp hnil]
  · simp

theorem trimEnd_of_stops (h : Stops isBlank cs.reverse) : trimEnd cs = cs := by
  have hdrop : cs.reverse.dropWhile isBlank = cs.reverse := trimStart_of_stops h
  rw [trimEnd, hdrop, List.reverse_reverse]

theorem stops_reverse_trimEnd : Stops isBlank (trimEnd cs).reverse := by
  rw [trimEnd, List.reverse_reverse]
  exact stops_dropWhile

theorem stops_reverse_append_iff (hne : rest ≠ []) : Stops p (run ++ rest).reverse ↔ Stops p rest.reverse := by
  rw [List.reverse_append]
  cases hrest : rest.reverse with
  | nil => exact absurd (List.reverse_eq_nil_iff.mp hrest) hne
  | cons c cs => simp

theorem stops_reverse_of_append (h : Stops p (run ++ rest).reverse) : Stops p rest.reverse := by
  by_cases hne : rest = []
  · simp [hne]
  · exact (stops_reverse_append_iff hne).mp h

theorem stops_reverse_trimStart (h : Stops p cs.reverse) : Stops p (trimStart cs).reverse := by
  obtain ⟨gap, -, hcs⟩ := exists_trimStart cs
  rw [hcs] at h
  exact stops_reverse_of_append h

def blanks : List Nat :=
  [9, 10, 11, 12, 13, 0x20, 0x85, 0xA0, 0x1680, 0x2000, 0x2001, 0x2002, 0x2003, 0x2004, 0x2005, 0x2006, 0x2007,
    0x2008, 0x2009, 0x200A, 0x2028, 0x2029, 0x202F, 0x205F, 0x3000]

theorem mem_blanks_of_isBlank (h : isBlank c = true) : c.toNat ∈ blanks := by
  simp only [isBlank, Bool.or_eq_true, Bool.and_eq_true, decide_eq_true_eq, beq_iff_eq] at h
  simp only [blanks, List.mem_cons, List.not_mem_nil, or_false]
  omega

theorem forall_isBlank {P : Char → Prop} (h : ∀ n ∈ blanks, P (Char.ofNat n)) (hc : isBlank c = true) :
    P c := by
  have hn := h c.toNat (mem_blanks_of_isBlank hc)
  rwa [Char.ofNat_toNat] at hn

theorem not_isDigit_of_isBlank (h : isBlank c = true) : isDigit c = false :=
  forall_isBlank (P := fun c => isDigit c = false) (by decide +kernel) h

theorem not_isWord_of_isBlank (h : isBlank c = true) : isWord c = false :=
  forall_isBlank (P := fun c => isWord c = false) (by decide +kernel) h

theorem isRun_decimal (n : Nat) : IsRun isDigit (decimal n) := by
  refine ⟨decimal_ne_nil n, ?_⟩
  have hdigit : ∀ i : Fin 10, isDigit (digit i.1) = true := by decide
  induction n using Nat.strongRecOn with
  | _ n ih =>
    rw [decimal]
    split
    · next hn => simpa using hdigit ⟨n, hn⟩
    · next hn =>
      rw [List.forall_mem_append]
      refine ⟨ih (n / 10) (by omega), ?_⟩
      simpa using hdigit ⟨n % 10, Nat.mod_lt n (by decide)⟩

end NativeBuild.Text
