import NativeBuild.Json.Basic
import NativeBuild.Text.Run

namespace NativeBuild.JsonValue

open Text (afterChar afterWord)

def isBlank (c : Char) : Bool := c == ' ' || c == '\n' || c == '\t' || c == '\r'

def skipBlanks (cs : List Char) : List Char := cs.dropWhile isBlank

def escaped? (c : Char) : Option Char :=
  match c with
  | '"' => some '"'
  | '\\' => some '\\'
  | '/' => some '/'
  | 'b' => some '\x08'
  | 'f' => some '\x0c'
  | 'n' => some '\n'
  | 'r' => some '\r'
  | 't' => some '\t'
  | _ => none

/-- The code units of a string up to its closing quote, and what follows the quote. A character
beyond the first plane is one unit when it stands for itself, and two when it is escaped. -/
def readUnits : List Char → Option (List Nat × List Char)
  | [] => none
  | '"' :: rest => some ([], rest)
  | '\\' :: 'u' :: a :: b :: c :: d :: rest => do
    let n ← Text.readHexDigits 0 [a, b, c, d]
    let (units, rest) ← readUnits rest
    return (n :: units, rest)
  | '\\' :: e :: rest => do
    let c ← escaped? e
    let (units, rest) ← readUnits rest
    return (c.toNat :: units, rest)
  | c :: rest =>
    if c.toNat < 0x20 || c == '\\' then none
    else (readUnits rest).map (fun (units, rest) => (c.toNat :: units, rest))

def isHighHalf (n : Nat) : Bool := 0xd800 ≤ n && n < 0xdc00

def isLowHalf (n : Nat) : Bool := 0xdc00 ≤ n && n < 0xe000

def joinHalves : List Nat → Option (List Char)
  | [] => some []
  | [n] => if isHighHalf n || isLowHalf n then none else some [Char.ofNat n]
  | m :: n :: rest =>
    if isHighHalf m then
      if isLowHalf n then
        (joinHalves rest).map (Char.ofNat (0x10000 + (m - 0xd800) * 0x400 + (n - 0xdc00)) :: ·)
      else none
    else if isLowHalf m then none
    else (joinHalves (n :: rest)).map (Char.ofNat m :: ·)

def readString (cs : List Char) : Option (Option String × List Char) :=
  (readUnits cs).map (fun (units, rest) => ((joinHalves units).map String.ofList, rest))

def readSign (cs : List Char) : List Char × List Char :=
  match cs with
  | '-' :: rest => (['-'], rest)
  | _ => ([], cs)

def readWhole (cs : List Char) : Option (List Char × List Char) :=
  match cs with
  | '0' :: rest => if (rest.head?.map Char.isDigit).getD false then none else some (['0'], rest)
  | _ => Text.takeRun Char.isDigit cs

def readFraction (cs : List Char) : Option (List Char × List Char) :=
  match cs with
  | '.' :: rest => (Text.takeRun Char.isDigit rest).map (fun (ds, rest) => ('.' :: ds, rest))
  | _ => some ([], cs)

def isSign (c : Char) : Bool := c == '+' || c == '-'

def readExponent (cs : List Char) : Option (List Char × List Char) :=
  match cs with
  | e :: rest =>
    if e == 'e' || e == 'E' then
      let (sign, rest) :=
        match rest with
        | s :: more => if isSign s then ([s], more) else ([], rest)
        | [] => ([], rest)
      (Text.takeRun Char.isDigit rest).map (fun (ds, rest) => (e :: sign ++ ds, rest))
    else some ([], cs)
  | [] => some ([], cs)

def readNumber (cs : List Char) : Option (List Char × List Char) := do
  let (sign, rest) := readSign cs
  let (whole, rest) ← readWhole rest
  let (fraction, rest) ← readFraction rest
  let (exponent, rest) ← readExponent rest
  return (sign ++ whole ++ fraction ++ exponent, rest)

def readPlain (cs : List Char) : Option (JsonValue × List Char) :=
  match cs with
  | '"' :: rest => (readString rest).map (fun (s, rest) => (.string s, rest))
  | 'n' :: _ => (afterWord "null".toList cs).map (fun rest => (.null, rest))
  | 't' :: _ => (afterWord "true".toList cs).map (fun rest => (.bool true, rest))
  | 'f' :: _ => (afterWord "false".toList cs).map (fun rest => (.bool false, rest))
  | _ => (readNumber cs).map (fun (n, rest) => (.number n, rest))

def readKey (cs : List Char) : Option (Option String × List Char) := do
  let rest ← afterChar '"' (skipBlanks cs)
  let (key, rest) ← readString rest
  let rest ← afterChar ':' (skipBlanks rest)
  return (key, rest)

mutual

def readValue : Nat → List Char → Option (JsonValue × List Char)
  | 0, _ => none
  | n + 1, cs =>
    match skipBlanks cs with
    | '[' :: rest =>
      match skipBlanks rest with
      | ']' :: rest => some (.array [], rest)
      | rest => (readItems n rest).map (fun (vs, rest) => (.array vs, rest))
    | '\x7b' :: rest =>
      match skipBlanks rest with
      | '\x7d' :: rest => some (.object [], rest)
      | rest => (readFields n rest).map (fun (es, rest) => (.object es, rest))
    | cs => readPlain cs

def readItems : Nat → List Char → Option (List JsonValue × List Char)
  | 0, _ => none
  | n + 1, cs => do
    let (v, rest) ← readValue n cs
    match skipBlanks rest with
    | ',' :: rest =>
      let (vs, rest) ← readItems n rest
      return (v :: vs, rest)
    | ']' :: rest => return ([v], rest)
    | _ => none

def readFields : Nat → List Char → Option (List (Option String × JsonValue) × List Char)
  | 0, _ => none
  | n + 1, cs => do
    let (key, rest) ← readKey cs
    let (v, rest) ← readValue n rest
    match skipBlanks rest with
    | ',' :: rest =>
      let (es, rest) ← readFields n rest
      return ((key, v) :: es, rest)
    | '\x7d' :: rest => return ([(key, v)], rest)
    | _ => none

end

def read (cs : List Char) : Option JsonValue := do
  let (v, rest) ← readValue (2 * cs.length + 2) cs
  if skipBlanks rest = [] then return v else none

end NativeBuild.JsonValue
