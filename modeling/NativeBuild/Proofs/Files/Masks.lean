import NativeBuild.Files.Glob
import NativeBuild.Proofs.Path.Inside

namespace NativeBuild

namespace Glob

open Text

def Plain (cs : List Char) : Prop := ∀ c ∈ cs, c ≠ '?' ∧ c ≠ '*' ∧ c ≠ '['

instance (cs : List Char) : Decidable (Plain cs) := List.decidableBAll _ cs

inductive Mask where
  | called (name : String)
  | endsIn (suffix : String)
  deriving DecidableEq, Repr

namespace Mask

def text : Mask → String
  | called name => name
  | endsIn suffix => "*" ++ suffix

def tokens : Mask → List Token
  | called name => name.toList.map .char
  | endsIn suffix => .anyRun :: suffix.toList.map .char

def Admits : Mask → String → Prop
  | called name, n => n = name
  | endsIn suffix, n => suffix.toList <:+ n.toList

def Legible : Mask → Prop
  | called name => IsName name ∧ Plain name.toList
  | endsIn suffix => Slashless suffix ∧ Plain suffix.toList

instance (m : Mask) : Decidable m.Legible := by
  cases m <;> exact inferInstanceAs (Decidable (_ ∧ _))

end Mask

variable {m : Mask} {cs xs : List Char} {n position : Nat} {before : Option Char} {d : Path}

theorem isMatch_chars : isMatch (cs.map .char) xs = true ↔ xs = cs := by
  induction cs generalizing xs with
  | nil => simp
  | cons c cs ih =>
    rw [List.map_cons, isMatch_cons (t := .char c) nofun]
    cases xs with
    | nil => simp [Token.after]
    | cons x xs => by_cases hx : x = c <;> simp [Token.after, Token.accepts, hx, ih]

theorem Mask.isMatch_tokens (m : Mask) (name : String) : isMatch m.tokens name.toList = true ↔ m.Admits name := by
  cases m with
  | called n => rw [tokens, isMatch_chars, String.toList_inj, Admits]
  | endsIn suffix =>
    rw [tokens, isMatch_anyRun, Admits]
    constructor
    · rintro ⟨s, hs, hmatch⟩
      exact isMatch_chars.mp hmatch ▸ hs
    · exact fun hs => ⟨_, hs, isMatch_chars.mpr rfl⟩

theorem readTokens_cons {c : Char} (hc : c ≠ '?' ∧ c ≠ '*' ∧ c ≠ '[') :
    readTokens (n + 1) before position (c :: cs) =
      (readTokens n (some c) (position + 1) cs).map (Token.char c :: ·) := by
  have hfront : readFront before position c cs = .ok ⟨.char c, 1, cs⟩ := by
    unfold readFront
    split
    · exact absurd rfl hc.1
    · exact absurd rfl hc.2.1
    · exact absurd rfl hc.2.2
    · exact absurd rfl hc.2.2
    · rfl
  rw [readTokens, hfront]
  show (readTokens n (c :: cs)[0]? (position + 1) cs).bind _ = _
  rw [List.getElem?_cons_zero]
  cases readTokens n (some c) (position + 1) cs <;> rfl

theorem readTokens_plain (h : Plain cs) (hn : cs.length ≤ n) :
    readTokens n before position cs = .ok (cs.map .char) := by
  induction cs generalizing n before position with
  | nil => cases n <;> rfl
  | cons c cs ih =>
    obtain ⟨hc, hcs⟩ := List.forall_mem_cons.mp h
    obtain ⟨n, rfl⟩ := Nat.exists_eq_add_one_of_ne_zero (Nat.ne_zero_of_lt hn)
    rw [readTokens_cons hc, ih hcs (Nat.le_of_succ_le_succ hn)]
    rfl

theorem readTokens_star (h : Plain cs) (hn : cs.length < n) :
    readTokens n before position ('*' :: cs) = .ok (.anyRun :: cs.map .char) := by
  obtain ⟨n, rfl⟩ := Nat.exists_eq_add_one_of_ne_zero (Nat.ne_zero_of_lt hn)
  have hstars : cs.takeWhile (· == '*') = [] ∧ cs.dropWhile (· == '*') = cs := by
    cases cs with
    | nil => exact ⟨rfl, rfl⟩
    | cons c cs =>
      have hc : (c == '*') = false := beq_eq_false_iff_ne.mpr (h c List.mem_cons_self).2.1
      simp [hc]
  have hfront : readFront before position '*' cs = .ok ⟨.anyRun, 1, cs⟩ := by
    rw [readFront, readStars, List.takeWhile_cons_of_pos rfl, List.dropWhile_cons_of_pos rfl, hstars.1, hstars.2]
  rw [readTokens, hfront]
  show (readTokens n ('*' :: cs)[0]? (position + 1) cs).bind _ = _
  rw [readTokens_plain h (Nat.le_of_lt_succ hn)]
  rfl

theorem readTokens_mask (hm : m.Legible) (h : Plain cs) (hn : (cs ++ m.text.toList).length ≤ n) :
    readTokens n before position (cs ++ m.text.toList) = .ok (cs.map .char ++ m.tokens) := by
  -- The characters before the mask are taken off one by one.
  induction cs generalizing n before position with
  | nil =>
    cases m with
    | called name => exact readTokens_plain hm.2 hn
    | endsIn suffix =>
      have htext : (Mask.endsIn suffix).text.toList = '*' :: suffix.toList := by simp [Mask.text]
      rw [List.nil_append, htext] at hn ⊢
      exact readTokens_star hm.2 hn
  | cons c cs ih =>
    obtain ⟨hc, hcs⟩ := List.forall_mem_cons.mp h
    obtain ⟨n, rfl⟩ := Nat.exists_eq_add_one_of_ne_zero (Nat.ne_zero_of_lt hn)
    rw [List.cons_append, readTokens_cons hc, ih hcs (Nat.le_of_succ_le_succ hn)]
    rfl

theorem Mask.tokens_ne_anyDepth (m : Mask) : m.tokens ≠ [.anyDepth] := by
  cases m with
  | called name => cases h : name.toList <;> simp [tokens, h]
  | endsIn suffix => simp [tokens]

theorem readStep_plain (h : Plain cs) : readStep cs = .ok (.name (cs.map .char)) := by
  have htokens : tokensOf cs = .ok (cs.map .char) := readTokens_plain h (Nat.le_refl _)
  have hdepth : cs.map Token.char ≠ [.anyDepth] := by cases cs <;> simp
  rw [readStep, htokens]
  show Except.ok (if _ then _ else _) = _
  rw [if_neg hdepth]

theorem readStep_mask (hm : m.Legible) : readStep m.text.toList = .ok (.name m.tokens) := by
  have hnone : Plain [] := List.forall_mem_nil _
  have htokens : tokensOf m.text.toList = .ok m.tokens := readTokens_mask hm hnone (Nat.le_refl _)
  rw [readStep, htokens]
  show Except.ok (if _ then _ else _) = _
  rw [if_neg m.tokens_ne_anyDepth]

theorem mapM_readStep {ps : List (List Char)} (hm : m.Legible) (h : ∀ q ∈ ps, Plain q) :
    (ps ++ [m.text.toList]).mapM readStep = .ok (ps.map (fun q => Step.name (q.map .char)) ++ [Step.name m.tokens]) := by
  induction ps with
  | nil =>
    rw [List.nil_append, List.mapM_cons, readStep_mask hm]
    rfl
  | cons q ps ih =>
    obtain ⟨hq, hps⟩ := List.forall_mem_cons.mp h
    rw [List.cons_append, List.mapM_cons, readStep_plain hq, ih hps]
    rfl

namespace Mask

theorem Legible.slashless (hm : m.Legible) : Slashless m.text := by
  cases m with
  | called name => exact hm.1.slashless
  | endsIn suffix =>
    have hsuffix : '/' ∉ suffix.toList := hm.1
    simp [Slashless, text, hsuffix]

theorem Legible.nonempty (hm : m.Legible) : m.text ≠ "" := by
  cases m with
  | called name => exact hm.1.nonempty
  | endsIn suffix =>
    intro h
    simpa [text] using congrArg String.toList h

end Mask

theorem readPattern_child (hm : m.Legible) (hd : Plain d.chars) :
    readPattern (d.child m.text).chars = .ok
      ⟨d.isAbsolute, d.lead.map (fun q => Step.name (q.map .char)) ++ [Step.name m.tokens], false⟩ := by
  obtain ⟨sep, hsep, hchars⟩ := Path.chars_child d hm.slashless
  have hplain : Plain sep := by obtain ⟨rfl, -⟩ | ⟨rfl, -⟩ := hsep <;> decide
  have hfront : Plain (d.chars ++ sep) := List.forall_mem_append.mpr ⟨hd, hplain⟩
  have hwhole : tokensOf (d.child m.text).chars = .ok ((d.chars ++ sep).map .char ++ m.tokens) := by
    rw [hchars]
    exact readTokens_mask hm hfront (Nat.le_refl _)
  have hlead : ∀ q ∈ d.lead, Plain q := by
    intro q hq c hc
    have hpiece := Path.mem_lead hq
    have hslash : c ≠ '/' := fun heq => not_mem_of_mem_pieces hpiece (heq ▸ hc)
    exact hd c ((Path.mem_iff_mem_pieces hslash).mpr ⟨q, hpiece, hc⟩)
  have hpieces := Path.pieces_child_lead d hm.slashless
  have hlast : m.text.toList ≠ [] := fun h => hm.nonempty (String.toList_inj.mp h)
  have hsteps : terminatedPieces '/' (if d.isAbsolute then (d.child m.text).chars.drop 1 else (d.child m.text).chars) =
      d.lead ++ [m.text.toList] := by
    have hbody : pieces '/' (if d.isAbsolute then (d.child m.text).chars.drop 1 else (d.child m.text).chars) =
        d.lead ++ [m.text.toList] := by
      rw [← Path.isAbsolute_child d hm.slashless] at hpieces ⊢
      split
      · next habsolute =>
        obtain ⟨cs, hcs⟩ := List.head?_eq_some_iff.mp (beq_iff_eq.mp habsolute)
        rw [if_pos habsolute, hcs, pieces, if_pos rfl] at hpieces
        rw [hcs]
        exact (List.cons.inj hpieces).2
      · next hrelative =>
        rw [if_neg hrelative] at hpieces
        exact hpieces
    rw [terminatedPieces, hbody, if_neg]
    simpa using hlast
  have hend : (d.child m.text).chars.getLast? ≠ some '/' := by
    rw [hchars, List.getLast?_append_of_ne_nil _ hlast]
    exact fun h => hm.slashless (List.mem_of_getLast? h)
  have habsolute : ((d.child m.text).chars.head? == some '/') = d.isAbsolute := Path.isAbsolute_child d hm.slashless
  have hslash : ((d.child m.text).chars.getLast? == some '/') = false := beq_eq_false_iff_ne.mpr hend
  rw [readPattern, hwhole, habsolute, hslash]
  show ((terminatedPieces '/' (if d.isAbsolute then _ else _)).mapM readStep).bind _ = _
  rw [hsteps, mapM_readStep hm hlead]
  rfl

end Glob

end NativeBuild
