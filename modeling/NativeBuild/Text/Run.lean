namespace NativeBuild.Text

def afterWord (word cs : List Char) : Option (List Char) :=
  if word.isPrefixOf cs then some (cs.drop word.length) else none

def afterChar (c : Char) : List Char → Option (List Char)
  | [] => none
  | d :: cs => if d = c then some cs else none

def takeRun (p : Char → Bool) (cs : List Char) : Option (List Char × List Char) :=
  match cs.takeWhile p with
  | [] => none
  | run => some (run, cs.dropWhile p)

def afterRun (p : Char → Bool) (cs : List Char) : Option (List Char) := (takeRun p cs).map (·.2)

theorem afterWord_eq_some_iff {word cs rest : List Char} : afterWord word cs = some rest ↔ cs = word ++ rest := by
  unfold afterWord
  split
  · next h =>
    obtain ⟨t, rfl⟩ := List.isPrefixOf_iff_prefix.1 h
    simp
  · next h =>
    simp only [reduceCtorEq, false_iff]
    rintro rfl
    exact h (List.isPrefixOf_iff_prefix.2 ⟨rest, rfl⟩)

theorem afterChar_eq_some_iff {c : Char} {cs rest : List Char} : afterChar c cs = some rest ↔ cs = c :: rest := by
  cases cs with
  | nil => simp [afterChar]
  | cons d cs => by_cases h : d = c <;> simp [afterChar, h]

theorem takeRun_eq_some {p : Char → Bool} {cs run rest : List Char} (h : takeRun p cs = some (run, rest)) :
    cs = run ++ rest ∧ run ≠ [] ∧ ∀ c ∈ run, p c := by
  unfold takeRun at h
  split at h
  · simp at h
  · next r hr =>
    simp at h
    obtain ⟨rfl, rfl⟩ := h
    refine ⟨(List.takeWhile_append_dropWhile ..).symm, ?_, fun c hc => ?_⟩
    · assumption
    · exact (List.all_eq_true.1 (List.all_takeWhile (l := cs) (p := p))) c hc

end NativeBuild.Text
