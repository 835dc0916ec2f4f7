namespace NativeBuild.Text

def hexDigit (n : Nat) : Char :=
  if n < 10 then Char.ofNat ('0'.toNat + n) else Char.ofNat ('a'.toNat + (n - 10))

def hexValue? (c : Char) : Option Nat :=
  if '0' ≤ c && c ≤ '9' then some (c.toNat - '0'.toNat)
  else if 'a' ≤ c && c ≤ 'f' then some (c.toNat - 'a'.toNat + 10)
  else if 'A' ≤ c && c ≤ 'F' then some (c.toNat - 'A'.toNat + 10)
  else none

theorem hexValue?_hexDigit {n : Nat} (h : n < 16) : hexValue? (hexDigit n) = some n := by
  have : ∀ i : Fin 16, hexValue? (hexDigit i.1) = some i.1 := by decide
  exact this ⟨n, h⟩

def readHexDigits : Nat → List Char → Option Nat
  | n, [] => some n
  | n, c :: cs => (hexValue? c).bind (fun d => readHexDigits (16 * n + d) cs)

def takeHex (count : Nat) (cs : List Char) : Option (Nat × List Char) :=
  if cs.length < count then none else (readHexDigits 0 (cs.take count)).map (·, cs.drop count)

end NativeBuild.Text
