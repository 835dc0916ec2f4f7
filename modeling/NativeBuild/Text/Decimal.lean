namespace NativeBuild.Text

def digit (n : Nat) : Char := Char.ofNat ('0'.toNat + n)

def decimal (n : Nat) : List Char := if n < 10 then [digit n] else decimal (n / 10) ++ [digit (n % 10)]

def digitValue? (c : Char) : Option Nat := if c.isDigit then some (c.toNat - '0'.toNat) else none

def readDigits : Nat → List Char → Option Nat
  | n, [] => some n
  | n, c :: cs => (digitValue? c).bind (fun d => readDigits (10 * n + d) cs)

def readDecimal : List Char → Option Nat
  | [] => none
  | cs => readDigits 0 cs

def readWord (cs : List Char) : Option UInt32 :=
  (readDecimal cs).bind (fun n => if n < UInt32.size then some n.toUInt32 else none)

theorem digitValue?_digit {n : Nat} (h : n < 10) : digitValue? (digit n) = some n := by
  have : ∀ i : Fin 10, digitValue? (digit i.1) = some i.1 := by decide
  exact this ⟨n, h⟩

theorem readDigits_append (n : Nat) (a b : List Char) :
    readDigits n (a ++ b) = (readDigits n a).bind (fun m => readDigits m b) := by
  induction a generalizing n with
  | nil => rfl
  | cons c a ih =>
    simp only [List.cons_append, readDigits]
    cases digitValue? c with
    | none => rfl
    | some d => exact ih _

theorem readDigits_decimal (n : Nat) : readDigits 0 (decimal n) = some n := by
  induction n using Nat.strongRecOn with
  | _ n ih =>
    rw [decimal]
    split
    · next h => simp [readDigits, digitValue?_digit h]
    · next h =>
      rw [readDigits_append, ih (n / 10) (by omega)]
      simp only [Option.bind_some, readDigits, digitValue?_digit (Nat.mod_lt n (by decide : 0 < 10))]
      congr 1
      omega

theorem decimal_ne_nil (n : Nat) : decimal n ≠ [] := by
  rw [decimal]
  split <;> simp

theorem readDecimal_decimal (n : Nat) : readDecimal (decimal n) = some n := by
  have h := decimal_ne_nil n
  revert h
  have hd := readDigits_decimal n
  cases hc : decimal n with
  | nil => simp
  | cons c cs => intro _; rw [readDecimal, ← hc, hd]; simp

theorem readWord_decimal (n : UInt32) : readWord (decimal n.toNat) = some n := by
  have hn : n.toNat < UInt32.size := n.toNat_lt
  simp [readWord, readDecimal_decimal, hn]

end NativeBuild.Text
