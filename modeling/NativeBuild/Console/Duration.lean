import NativeBuild.Text.Decimal

/-!
Durations in words. A duration is first a number of fifty-three significant bits, as clocks give it,
and that number is rounded exactly: hundredths of a second below a minute, tenths of a minute from
there on. A half goes to the even neighbour.
-/

namespace NativeBuild

structure Duration where
  seconds : Nat
  nanoseconds : Nat
  deriving DecidableEq, Repr

structure Fraction where
  num : Nat
  den : Nat
  deriving DecidableEq, Repr

namespace Fraction

def round (f : Fraction) : Nat :=
  let q := f.num / f.den
  let r := f.num % f.den
  if 2 * r < f.den then q else if f.den < 2 * r then q + 1 else if q % 2 = 0 then q else q + 1

def scale (f : Fraction) (e : Int) : Fraction :=
  if 0 ≤ e then ⟨f.num * Nat.pow 2 e.toNat, f.den⟩ else ⟨f.num, f.den * Nat.pow 2 (-e).toNat⟩

/-- The power of two by which a fraction comes to lie between two to the fifty-second and the
fifty-third. -/
def shift (f : Fraction) : Int :=
  let guess : Int := 52 - ((f.num.log2 : Int) - (f.den.log2 : Int))
  let scaled := f.scale guess
  if scaled.num < Nat.pow 2 52 * scaled.den then guess + 1 else guess

def toSignificant (f : Fraction) : Fraction :=
  if f.num = 0 then ⟨0, 1⟩ else (⟨(f.scale f.shift).round, 1⟩ : Fraction).scale (-f.shift)

def add (a b : Fraction) : Fraction := ⟨a.num * b.den + b.num * a.den, a.den * b.den⟩

def dividedBy (a : Fraction) (n : Nat) : Fraction := ⟨a.num, a.den * n⟩

def fixed (f : Fraction) (places : Nat) : String :=
  let n := (⟨f.num * Nat.pow 10 places, f.den⟩ : Fraction).round
  let digits := Text.decimal (n % Nat.pow 10 places)
  String.ofList (Text.decimal (n / Nat.pow 10 places) ++ '.' :: List.replicate (places - digits.length) '0' ++ digits)

end Fraction

namespace Duration

def total (d : Duration) : Fraction :=
  ((⟨d.seconds, 1⟩ : Fraction).toSignificant.add (⟨d.nanoseconds, 1000000000⟩ : Fraction).toSignificant).toSignificant

def text (d : Duration) : String :=
  if d.total.num < 60 * d.total.den then d.total.fixed 2 ++ "s"
  else (d.total.dividedBy 60).toSignificant.fixed 1 ++ "m"

end Duration

end NativeBuild
