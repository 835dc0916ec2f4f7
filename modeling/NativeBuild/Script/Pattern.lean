import NativeBuild.Files.Glob
import NativeBuild.Script.Syntax

namespace NativeBuild.Script

structure Mark where
  char : Char
  quoted : Bool
  deriving DecidableEq, Repr

abbrev Marked := List Mark

def mark (quoted : Bool) (cs : List Char) : Marked := cs.map (fun c => ⟨c, quoted⟩)

def plainText (ms : Marked) : List Char := ms.map (·.char)

def takeMembers : Bool → List Char → Option (List Glob.Span × List Char)
  | _, [] => none
  | isFirst, c :: '-' :: d :: cs =>
    if c = ']' && !isFirst then some ([], '-' :: d :: cs)
    else if d = ']' then some ([⟨c, c⟩, ⟨'-', '-'⟩], cs)
    else (takeMembers false cs).map (fun (ss, rest) => (⟨c, d⟩ :: ss, rest))
  | isFirst, c :: cs =>
    if c = ']' && !isFirst then some ([], cs)
    else (takeMembers false cs).map (fun (ss, rest) => (⟨c, c⟩ :: ss, rest))

def takeSet : List Char → Option (Glob.Token × List Char)
  | '!' :: cs => (takeMembers true cs).map (fun (ss, rest) => (.noneOf ss, rest))
  | cs => (takeMembers true cs).map (fun (ss, rest) => (.oneOf ss, rest))

/-- The tokens of a pattern; a bracket that is not closed stands for itself. -/
def readPattern : Nat → Marked → List Glob.Token
  | 0, _ => []
  | _, [] => []
  | fuel + 1, m :: ms =>
    if m.quoted then .char m.char :: readPattern fuel ms
    else
      match m.char with
      | '*' => .anyRun :: readPattern fuel ms
      | '?' => .anyChar :: readPattern fuel ms
      | '[' =>
        match takeSet (plainText ms) with
        | some (t, rest) => t :: readPattern fuel (ms.drop (ms.length - rest.length))
        | none => .char '[' :: readPattern fuel ms
      | c => .char c :: readPattern fuel ms

def Marked.isMatch (ms : Marked) (cs : List Char) : Bool := Glob.isMatch (readPattern ms.length ms) cs

def Cut.apply (cut : Cut) (pattern : Marked) (cs : List Char) : List Char :=
  let lengths := List.range (cs.length + 1)
  let found := (if cut.longest then lengths.reverse else lengths).find? (fun n =>
    pattern.isMatch (if cut.atEnd then cs.drop (cs.length - n) else cs.take n))
  match found with
  | some n => if cut.atEnd then cs.take (cs.length - n) else cs.drop n
  | none => cs

def Marked.isPattern (ms : Marked) : Bool :=
  ms.any (fun m => !m.quoted && (m.char == '*' || m.char == '?' || m.char == '['))

def Marked.files (t : FileTree) (ms : Marked) : List String :=
  let step : Marked := (ms.reverse.takeWhile (·.char != '/')).reverse
  let front := String.ofList (plainText (ms.take (ms.length - step.length)))
  let names := (t.children ⟨if front = "" then "." else front⟩).filterMap Path.fileName?
  let hidden := step.head?.map (·.char) == some '.'
  let found := names.filter (fun n => (hidden || !n.startsWith ".") && step.isMatch n.toList)
  if step.isPattern && found ≠ [] then (found.map (front ++ ·)).mergeSort (fun a b => decide (a ≤ b))
  else [String.ofList (plainText ms)]

end NativeBuild.Script
