import NativeBuild.Script.Formula
import NativeBuild.Script.Utility.Basic

namespace NativeBuild.Script

def octal (digits : List Char) : UInt8 := (digits.foldl (fun n c => 8 * n + (c.toNat - '0'.toNat)) 0).toUInt8

def isOctal (c : Char) : Bool := '0' ≤ c && c ≤ '7'

def controlByte? : Char → Option UInt8
  | 'a' => some 7
  | 'b' => some 8
  | 't' => some 9
  | 'n' => some 10
  | 'v' => some 11
  | 'f' => some 12
  | 'r' => some 13
  | '\\' => some 92
  | _ => none

/-- The bytes for what follows a backslash, and how many characters that is. An octal number in an
argument has a nought in front that counts for nothing. -/
def readEscape (inArgument : Bool) : List Char → List UInt8 × Nat
  | [] => ([92], 0)
  | c :: cs =>
    match controlByte? c with
    | some b => ([b], 1)
    | none =>
      if inArgument && c = '0' then
        let digits := (cs.take 3).takeWhile isOctal
        ([octal digits], digits.length + 1)
      else if isOctal c then
        let digits := ((c :: cs).take 3).takeWhile isOctal
        ([octal digits], digits.length)
      else (92 :: Text.encodeUtf8 [c], 1)

def unescape : Nat → List Char → List UInt8 × Bool
  | 0, _ => ([], false)
  | _, [] => ([], false)
  | _, '\\' :: 'c' :: _ => ([], true)
  | fuel + 1, c :: cs =>
    let (bytes, width) := if c = '\\' then readEscape true cs else (Text.encodeUtf8 [c], 0)
    let (rest, ends) := unescape fuel (cs.drop width)
    (bytes ++ rest, ends)

def unescaped (s : String) : List UInt8 × Bool := unescape (s.length + 1) s.toList

def echoed (args : List String) : List UInt8 :=
  let isOpen := args.head? == some "-n"
  let (bytes, ends) := unescaped (String.intercalate " " (if isOpen then args.tail else args))
  bytes ++ (if isOpen || ends then [] else [10])

inductive Directive where
  | bytes (bs : List UInt8)
  | value (kind : Char)
  | senseless (text : String)
  deriving DecidableEq, Repr

def directives : Nat → List Char → List Directive
  | 0, _ => []
  | _, [] => []
  | fuel + 1, '%' :: c :: cs =>
    if c = '%' then .bytes [37] :: directives fuel cs
    else if c = 's' || c = 'b' || c = 'c' || c = 'd' then .value c :: directives fuel cs
    else [.senseless (String.ofList ['%', c])]
  | fuel + 1, '\\' :: cs =>
    let (bytes, width) := readEscape false cs
    .bytes bytes :: directives fuel (cs.drop width)
  | fuel + 1, c :: cs => .bytes (Text.encodeUtf8 [c]) :: directives fuel cs

structure Filled where
  out : List UInt8 := []
  faults : List String := []
  args : List String
  took : Bool := false
  ends : Bool := false

def Directive.fill (f : Filled) (d : Directive) : Filled :=
  if f.ends then f
  else
    let arg := f.args.headD ""
    let taking (out : List UInt8) : Filled := { f with out := f.out ++ out, args := f.args.tail, took := true }
    match d with
    | .bytes bs => { f with out := f.out ++ bs }
    | .senseless text => { f with faults := f.faults ++ [text ++ ": invalid directive"], ends := true }
    | .value 's' => taking (bytesOf arg)
    | .value 'c' => taking ((bytesOf arg).take 1)
    | .value 'b' => { taking (unescaped arg).1 with ends := (unescaped arg).2 }
    | .value _ =>
      match if arg = "" then some 0 else Formula.number? arg with
      | some n => taking (bytesOf (toString n.toInt))
      | none => { taking (bytesOf "0") with faults := f.faults ++ [arg ++ ": expected numeric value"] }

def fillAll (ds : List Directive) : Nat → Filled → Filled
  | 0, f => f
  | fuel + 1, f =>
    let f := ds.foldl Directive.fill { f with took := false }
    if f.ends || !f.took || f.args.isEmpty then f else fillAll ds fuel f

def printFormatted (t : FileTree) (args : List String) : Effect :=
  match if args.head? = some "--" then args.tail else args with
  | [] => { status := 2, files := t, faults := ["usage: printf format [arg ...]"] }
  | format :: args =>
    let f := fillAll (directives (format.length + 1) format.toList) (args.length + 1) { args }
    { status := if f.faults = [] then 0 else 1, files := t, out := f.out, faults := f.faults }

end NativeBuild.Script
