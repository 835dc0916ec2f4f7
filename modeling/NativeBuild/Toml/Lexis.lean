import NativeBuild.Text.Hex
import NativeBuild.Text.Run

namespace NativeBuild.Toml

open Text (afterChar afterWord)

def isBlank (c : Char) : Bool := c == ' ' || c == '\t'

def skipBlanks (cs : List Char) : List Char := cs.dropWhile isBlank

def isPlain (c : Char) : Bool := c == '\t' || (0x20 ≤ c.toNat && c.toNat != 0x7f)

def afterNewline : List Char → Option (List Char)
  | '\n' :: rest => some rest
  | '\r' :: '\n' :: rest => some rest
  | _ => none

def skipComment : List Char → List Char
  | '#' :: rest => rest.dropWhile isPlain
  | cs => cs

def afterLine (cs : List Char) : Option (List Char) :=
  match skipComment (skipBlanks cs) with
  | [] => some []
  | rest => afterNewline rest

def skipLines : Nat → List Char → List Char
  | 0, cs => cs
  | n + 1, cs =>
    let rest := skipBlanks cs
    match afterNewline (skipComment rest) with
    | some next => skipLines n next
    | none => rest

def isKeyChar (c : Char) : Bool := c.isAlphanum || c == '_' || c == '-'

def escaped? : Char → Option Char
  | 'b' => some '\x08'
  | 't' => some '\t'
  | 'n' => some '\n'
  | 'f' => some '\x0c'
  | 'r' => some '\r'
  | '"' => some '"'
  | '\\' => some '\\'
  | _ => none

def codePoint? (n : Nat) : Option Char := if n.isValidChar then some (Char.ofNat n) else none

def readEscape : List Char → Option (Char × List Char)
  | 'u' :: rest => do
    let (n, rest) ← Text.takeHex 4 rest
    return (← codePoint? n, rest)
  | 'U' :: rest => do
    let (n, rest) ← Text.takeHex 8 rest
    return (← codePoint? n, rest)
  | c :: rest => (escaped? c).map (·, rest)
  | [] => none

def readBasic : Nat → List Char → Option (List Char × List Char)
  | 0, _ => none
  | n + 1, cs =>
    match cs with
    | '"' :: rest => some ([], rest)
    | '\\' :: rest => do
      let (c, rest) ← readEscape rest
      let (text, rest) ← readBasic n rest
      return (c :: text, rest)
    | c :: rest => if isPlain c then (readBasic n rest).map (fun (text, rest) => (c :: text, rest)) else none
    | [] => none

def readLiteral (cs : List Char) : Option (List Char × List Char) :=
  let text := cs.takeWhile (fun c => c != '\'' && isPlain c)
  (afterChar '\'' (cs.drop text.length)).map (text, ·)

/-- The quotes in front of the three that close a string of several lines, at most two, and the rest. -/
def closing (quote : Char) (cs : List Char) : Option (List Char × List Char) :=
  let quotes := cs.takeWhile (· == quote)
  if quotes.length < 3 then none
  else
    let inner := min (quotes.length - 3) 2
    some (List.replicate inner quote, cs.drop (inner + 3))

def skipSpace : List Char → List Char
  | ' ' :: rest => skipSpace rest
  | '\t' :: rest => skipSpace rest
  | '\n' :: rest => skipSpace rest
  | '\r' :: '\n' :: rest => skipSpace rest
  | cs => cs

def afterContinuation (cs : List Char) : Option (List Char) := (afterNewline (skipBlanks cs)).map skipSpace

def readLines (quote : Char) (escapes : Bool) : Nat → List Char → Option (List Char × List Char)
  | 0, _ => none
  | n + 1, cs =>
    match closing quote cs with
    | some found => some found
    | none =>
      let and (c : Char) (rest : List Char) : Option (List Char × List Char) :=
        (readLines quote escapes n rest).map (fun (text, rest) => (c :: text, rest))
      match afterNewline cs with
      | some rest => and '\n' rest
      | none =>
        match cs with
        | [] => none
        | c :: rest =>
          if escapes && c == '\\' then
            match afterContinuation rest with
            | some rest => readLines quote escapes n rest
            | none =>
              match readEscape rest with
              | some (c, rest) => and c rest
              | none => none
          else if isPlain c then and c rest
          else none

def dropNewline (cs : List Char) : List Char := (afterNewline cs).getD cs

def readString (cs : List Char) : Option (List Char × List Char) :=
  match cs with
  | '"' :: '"' :: '"' :: rest => readLines '"' true (rest.length + 1) (dropNewline rest)
  | '\'' :: '\'' :: '\'' :: rest => readLines '\'' false (rest.length + 1) (dropNewline rest)
  | '"' :: rest => readBasic (rest.length + 1) rest
  | '\'' :: rest => readLiteral rest
  | _ => none

def readSimpleKey (cs : List Char) : Option (String × List Char) :=
  match cs with
  | '"' :: rest => (readBasic (rest.length + 1) rest).map (fun (k, rest) => (String.ofList k, rest))
  | '\'' :: rest => (readLiteral rest).map (fun (k, rest) => (String.ofList k, rest))
  | _ => (Text.takeRun isKeyChar cs).map (fun (k, rest) => (String.ofList k, rest))

def readKey : Nat → List Char → Option (List String × List Char)
  | 0, _ => none
  | n + 1, cs => do
    let (key, rest) ← readSimpleKey (skipBlanks cs)
    match skipBlanks rest with
    | '.' :: rest =>
      let (keys, rest) ← readKey n rest
      return (key :: keys, rest)
    | rest => return ([key], rest)

def depthLimit : Nat := 80

def readPath (cs : List Char) : Option (List String × List Char) := do
  let (keys, rest) ← readKey (cs.length + 1) cs
  if keys.length < depthLimit then return (keys, rest) else none

end NativeBuild.Toml
