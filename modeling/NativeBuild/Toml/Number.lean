import NativeBuild.Text.Decimal
import NativeBuild.Text.Hex
import NativeBuild.Text.Run
import NativeBuild.Toml.Value

namespace NativeBuild.Toml

open Text (afterChar afterWord)

def moreDigits (p : Char → Bool) : List Char → List Char × List Char
  | [] => ([], [])
  | '_' :: d :: rest =>
    if p d then
      let (ds, rest) := moreDigits p rest
      (d :: ds, rest)
    else ([], '_' :: d :: rest)
  | c :: rest =>
    if p c then
      let (ds, rest) := moreDigits p rest
      (c :: ds, rest)
    else ([], c :: rest)

def readDigits (p : Char → Bool) : List Char → Option (List Char × List Char)
  | [] => none
  | c :: rest =>
    if p c then
      let (ds, rest) := moreDigits p rest
      some (c :: ds, rest)
    else none

def readSign : List Char → Bool × List Char
  | '+' :: rest => (false, rest)
  | '-' :: rest => (true, rest)
  | cs => (false, cs)

def readWhole : List Char → Option (List Char × List Char)
  | '0' :: rest => some (['0'], rest)
  | cs => readDigits Char.isDigit cs

def digitsValue (base : Nat) (ds : List Char) : Nat :=
  ds.foldl (fun n d => base * n + (Text.hexValue? d).getD 0) 0

def fits (negative : Bool) (n : Nat) : Bool := if negative then n ≤ Nat.pow 2 63 else n < Nat.pow 2 63

def isBinaryDigit (c : Char) : Bool := c == '0' || c == '1'

def isOctalDigit (c : Char) : Bool := '0' ≤ c && c ≤ '7'

def isHexDigit (c : Char) : Bool := (Text.hexValue? c).isSome

def readBased (base : Nat) (p : Char → Bool) (cs : List Char) : Option (List Char) :=
  (readDigits p cs).bind (fun (ds, rest) => if fits false (digitsValue base ds) then some rest else none)

def readDecimalInteger (cs : List Char) : Option (List Char) := do
  let (negative, rest) := readSign cs
  let (ds, rest) ← readWhole rest
  if fits negative (digitsValue 10 ds) then return rest else none

def readInteger (cs : List Char) : Option (List Char) :=
  match cs with
  | '0' :: 'x' :: rest => readBased 16 isHexDigit rest
  | '0' :: 'o' :: rest => readBased 8 isOctalDigit rest
  | '0' :: 'b' :: rest => readBased 2 isBinaryDigit rest
  | _ => readDecimalInteger cs

def overflows (digits : List Char) (exponent : Int) : Bool :=
  let n := digitsValue 10 digits
  let magnitude := (Text.decimal n).length + exponent
  if n = 0 || magnitude < 300 then false
  else if 320 < magnitude then true
  else
    let limit := Nat.pow 2 1024 - Nat.pow 2 970
    if 0 ≤ exponent then limit ≤ n * Nat.pow 10 exponent.toNat else limit * Nat.pow 10 (-exponent).toNat ≤ n

def readFraction (cs : List Char) : Option (List Char × List Char) :=
  (afterChar '.' cs).bind (readDigits Char.isDigit)

def afterExponentMark : List Char → Option (List Char)
  | 'e' :: rest => some rest
  | 'E' :: rest => some rest
  | _ => none

def readExponent (cs : List Char) : Option (Int × List Char) := do
  let (negative, rest) := readSign (← afterExponentMark cs)
  let (ds, rest) ← readDigits Char.isDigit rest
  let n : Int := digitsValue 10 ds
  return (if negative then -n else n, rest)

def readFinite (cs : List Char) : Option (List Char) := do
  let (negative, rest) := readSign cs
  let (whole, rest) ← readWhole rest
  let (digits, exponent, rest) ←
    match readFraction rest, readExponent rest with
    | some (fraction, rest), _ =>
      match readExponent rest with
      | some (e, rest) => some (whole ++ fraction, e - fraction.length, rest)
      | none => some (whole ++ fraction, -(fraction.length : Int), rest)
    | none, some (e, rest) => some (whole, e, rest)
    | none, none => none
  if !negative && overflows digits exponent then none else return rest

def readSpecial (cs : List Char) : Option (List Char) :=
  let (_, rest) := readSign cs
  (afterWord "inf".toList rest).or (afterWord "nan".toList rest)

def readFloat (cs : List Char) : Option (List Char) := (readFinite cs).or (readSpecial cs)

def readField (count low high : Nat) (cs : List Char) : Option (Nat × List Char) :=
  let ds := cs.take count
  if ds.length = count && ds.all Char.isDigit then
    let n := digitsValue 10 ds
    if low ≤ n && n ≤ high then some (n, cs.drop count) else none
  else none

def isLeap (year : Nat) : Bool := year % 4 == 0 && (year % 100 != 0 || year % 400 == 0)

def daysIn (year month : Nat) : Nat :=
  if month = 2 then (if isLeap year then 29 else 28)
  else if month = 4 || month = 6 || month = 9 || month = 11 then 30
  else 31

def readDate (cs : List Char) : Option (List Char) := do
  let (year, rest) ← readField 4 0 9999 cs
  let (month, rest) ← readField 2 1 12 (← afterChar '-' rest)
  let (_, rest) ← readField 2 1 (daysIn year month) (← afterChar '-' rest)
  return rest

def readTime (cs : List Char) : Option (List Char) := do
  let (_, rest) ← readField 2 0 23 cs
  let (_, rest) ← readField 2 0 59 (← afterChar ':' rest)
  let (_, rest) ← readField 2 0 60 (← afterChar ':' rest)
  match afterChar '.' rest with
  | some rest => Text.afterRun Char.isDigit rest
  | none => return rest

def readOffset : List Char → Option (List Char)
  | 'Z' :: rest => some rest
  | 'z' :: rest => some rest
  | c :: rest =>
    if c == '+' || c == '-' then do
      let (_, rest) ← readField 2 0 23 rest
      let (_, rest) ← readField 2 0 59 (← afterChar ':' rest)
      return rest
    else none
  | [] => none

def isTimeMark (c : Char) : Bool := c == 'T' || c == 't' || c == ' '

def skipTime (cs : List Char) : List Char :=
  match cs with
  | c :: rest =>
    if isTimeMark c then
      match readTime rest with
      | some rest => (readOffset rest).getD rest
      | none => cs
    else cs
  | [] => []

def readDateTime (cs : List Char) : Option (List Char) :=
  match readDate cs with
  | some rest => some (skipTime rest)
  | none => readTime cs

/-- A date, a float or a whole number, whichever fits first. -/
def readNumber (cs : List Char) : Option (TomlValue × List Char) :=
  ((readDateTime cs).map (TomlValue.date, ·)).or
    (((readFloat cs).map (TomlValue.float, ·)).or ((readInteger cs).map (TomlValue.integer, ·)))

end NativeBuild.Toml
