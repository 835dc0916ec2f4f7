/-!
UTF-8. A text is decoded character by character; where no character begins, the longest run of bytes
that could have begun one counts as one mistake.
-/

namespace NativeBuild.Text

def encodeUtf8 (cs : List Char) : List UInt8 := cs.flatMap String.utf8EncodeChar

def isTail (b : UInt8) : Bool := 0x80 ≤ b && b ≤ 0xbf

def tailCount (b : UInt8) : Option Nat :=
  if b ≤ 0x7f then some 0
  else if 0xc2 ≤ b && b ≤ 0xdf then some 1
  else if 0xe0 ≤ b && b ≤ 0xef then some 2
  else if 0xf0 ≤ b && b ≤ 0xf4 then some 3
  else none

/-- Whether a byte can stand second in a character: no longer form than needed, no surrogate, nothing
beyond the last plane. -/
def secondAllowed (first second : UInt8) : Bool :=
  isTail second &&
  (if first == 0xe0 then 0xa0 ≤ second
    else if first == 0xed then second ≤ 0x9f
    else if first == 0xf0 then 0x90 ≤ second
    else if first == 0xf4 then second ≤ 0x8f
    else true)

def takeTail (first : UInt8) (count : Nat) (bytes : List UInt8) : List UInt8 :=
  match count, bytes with
  | 0, _ => []
  | _, [] => []
  | n + 1, b :: rest => if secondAllowed first b then b :: (rest.take n).takeWhile isTail else []

def leadBits (first : UInt8) (count : Nat) : Nat :=
  match count with
  | 0 => first.toNat
  | 1 => first.toNat % 0x20
  | 2 => first.toNat % 0x10
  | _ => first.toNat % 0x08

def joinBits (lead : Nat) (tail : List UInt8) : Nat := tail.foldl (fun n b => n * 0x40 + b.toNat % 0x40) lead

/-- The character at the front of some bytes, none where they begin no character, and the number of
bytes after the first that belong to it. -/
def decodeFront (first : UInt8) (rest : List UInt8) : Option Char × Nat :=
  match tailCount first with
  | none => (none, 0)
  | some count =>
    let tail := takeTail first count rest
    if tail.length = count then (some (Char.ofNat (joinBits (leadBits first count) tail)), count)
    else (none, tail.length)

def decodeUnits : List UInt8 → List (Option Char)
  | [] => []
  | b :: rest => (decodeFront b rest).1 :: decodeUnits (rest.drop (decodeFront b rest).2)
termination_by bytes => bytes.length
decreasing_by simp only [List.length_drop, List.length_cons]; omega

def decodeUtf8? (bytes : List UInt8) : Option (List Char) := (decodeUnits bytes).mapM id

def decodeLossy (bytes : List UInt8) : List Char := (decodeUnits bytes).map (·.getD '\ufffd')

end NativeBuild.Text
