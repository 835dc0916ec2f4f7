import NativeBuild.Toml.Lexis
import NativeBuild.Toml.Number
import NativeBuild.Toml.Table

namespace NativeBuild.Toml

open Text (afterChar afterWord)

def readPlain (cs : List Char) : Option (TomlValue × List Char) :=
  match cs with
  | '"' :: _ => (readString cs).map (fun (s, rest) => (.string (String.ofList s), rest))
  | '\'' :: _ => (readString cs).map (fun (s, rest) => (.string (String.ofList s), rest))
  | 't' :: _ => (afterWord "true".toList cs).map (TomlValue.boolean true, ·)
  | 'f' :: _ => (afterWord "false".toList cs).map (TomlValue.boolean false, ·)
  | _ => readNumber cs

mutual

def readValue : Nat → Nat → List Char → Option (TomlValue × List Char)
  | 0, _, _ => none
  | n + 1, depth, cs =>
    match cs with
    | '[' :: rest =>
      if depth ≤ 1 then none
      else (readItems n (depth - 1) rest).map (fun (vs, rest) => (.array vs, rest))
    | '\x7b' :: rest =>
      if depth ≤ 1 then none
      else
        match skipBlanks rest with
        | '\x7d' :: rest => some (.table [], rest)
        | rest => (readPairs n (depth - 1) rest []).map (fun (es, rest) => (.table (entryValues es), rest))
    | _ => readPlain cs

def readItems : Nat → Nat → List Char → Option (List TomlValue × List Char)
  | 0, _, _ => none
  | n + 1, depth, cs =>
    match skipLines cs.length cs with
    | ']' :: rest => some ([], rest)
    | cs => do
      let (v, rest) ← readValue n depth cs
      match skipLines rest.length rest with
      | ']' :: rest => return ([v], rest)
      | ',' :: rest =>
        let (vs, rest) ← readItems n depth rest
        return (v :: vs, rest)
      | _ => none

def readPairs : Nat → Nat → List Char → Entries → Option (Entries × List Char)
  | 0, _, _, _ => none
  | n + 1, depth, cs, known => do
    let (path, rest) ← readPath cs
    let rest ← afterChar '=' rest
    let (v, rest) ← readValue n depth (skipBlanks rest)
    let known ← assign path v known
    match skipBlanks rest with
    | '\x7d' :: rest => return (known, rest)
    | ',' :: rest => readPairs n depth rest known
    | _ => none

end

def readPair (cs : List Char) : Option (List String × TomlValue × List Char) := do
  let (path, rest) ← readPath cs
  let rest ← afterChar '=' rest
  let (v, rest) ← readValue (2 * rest.length + 2) depthLimit (skipBlanks rest)
  return (path, v, ← afterLine rest)

def readHeader (closing : String) (cs : List Char) : Option (List String × List Char) := do
  let (path, rest) ← readPath cs
  let rest ← afterWord closing.toList rest
  return (path, ← afterLine rest)

def readLine (s : State) (cs : List Char) : Option (State × List Char) :=
  match skipBlanks cs with
  | '[' :: '[' :: rest => do
    let (path, rest) ← readHeader "]]" rest
    return (← openElement path s, rest)
  | '[' :: rest => do
    let (path, rest) ← readHeader "]" rest
    return (← openTable path s, rest)
  | rest =>
    match afterLine rest with
    | some rest => some (s, rest)
    | none => do
      let (path, v, rest) ← readPair rest
      return (← assignOpened path v s, rest)

def readAll : Nat → State → List Char → Option State
  | _, s, [] => some s
  | 0, _, _ :: _ => none
  | n + 1, s, cs => do
    let (s, rest) ← readLine s cs
    readAll n s rest

def dropByteOrderMark : List Char → List Char
  | '\ufeff' :: rest => rest
  | cs => cs

def read (text : String) : Option (List (String × TomlValue)) := do
  let cs := dropByteOrderMark text.toList
  let s ← readAll cs.length start cs
  return entryValues (← close s)

end NativeBuild.Toml
