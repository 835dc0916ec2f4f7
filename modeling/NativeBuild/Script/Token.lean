import NativeBuild.Script.Syntax

namespace NativeBuild.Script

inductive Lexeme where
  | word (w : Word)
  | operator (s : String)
  | descriptor (n : Nat)
  | document (w : Word)
  | finish
  | broken (why : String)

structure Token where
  lexeme : Lexeme
  line : Nat

def isSpace (c : Char) : Bool := c == ' ' || c == '\t'

def isOperatorChar (c : Char) : Bool :=
  c == ';' || c == '&' || c == '|' || c == '<' || c == '>' || c == '(' || c == ')' || c == '\n'

def isNameChar (c : Char) : Bool := c.isAlphanum || c == '_'

def isName (cs : List Char) : Bool := cs ≠ [] && cs.all isNameChar && !(cs.headD ' ').isDigit

inductive Surrounding where
  | bare
  | quotes
  | braces (quoted : Bool)
  | document
  deriving DecidableEq, Repr

def Surrounding.isQuoted : Surrounding → Bool
  | .bare => false
  | .quotes | .document => true
  | .braces quoted => quoted

def Surrounding.escapes (place : Surrounding) (c : Char) : Bool :=
  !place.isQuoted || c == '$' || c == '`' || c == '\\' || (c == '"' && place != .document) ||
    (c == '}' && place == .braces true)

def Surrounding.lack : Surrounding → Option String
  | .bare | .document => none
  | .quotes => some "Unterminated quoted string"
  | .braces _ => some "Missing '\x7d'"

def takeName : List Char → Option (String × List Char)
  | [] => none
  | c :: cs =>
    if "@*#?$!-".toList.contains c || c.isDigit then some (c.toString, cs)
    else if isNameChar c then
      some (String.ofList ((c :: cs).takeWhile isNameChar), (c :: cs).dropWhile isNameChar)
    else none

structure Nesting where
  depth : Nat := 0
  quote : Option Char := none
  escaped : Bool := false

def Nesting.step (n : Nesting) (c : Char) : Nesting :=
  if n.escaped then { n with escaped := false }
  else
    match n.quote with
    | some q => if c = q then { n with quote := none } else { n with escaped := c == '\\' && q == '"' }
    | none =>
      if c = '\\' then { n with escaped := true }
      else if c = '\'' || c = '"' then { n with quote := some c }
      else if c = '(' then { n with depth := n.depth + 1 }
      else if c = ')' then { n with depth := n.depth - 1 }
      else n

def takeBracketed (n : Nesting) : List Char → Option (List Char × List Char)
  | [] => none
  | c :: cs =>
    if c = ')' && n.depth = 0 && n.quote.isNone && !n.escaped then some ([], cs)
    else (takeBracketed (n.step c) cs).map (fun (inner, rest) => (c :: inner, rest))

def operators : List String :=
  ["<<-", ";;", "&&", "||", ">>", ">&", "<&", "<<", ";", "&", "|", "<", ">", "(", ")", "\n"]

def takeOperator (cs : List Char) : Option (String × List Char) :=
  (operators.find? (fun o => o.toList.isPrefixOf cs)).map (fun o => (o, cs.drop o.length))

structure Pending where
  delimiter : List Char
  literal : Bool
  stripped : Bool

def takeDocument (p : Pending) : Nat → List Char → List Char × List Char
  | 0, cs => ([], cs)
  | _, [] => ([], [])
  | fuel + 1, cs =>
    let cs := if p.stripped then cs.dropWhile (· == '\t') else cs
    let line := cs.takeWhile (· != '\n')
    let rest := cs.drop (line.length + 1)
    if line = p.delimiter then ([], rest)
    else
      let (body, rest) := takeDocument p fuel rest
      (cs.take (line.length + 1) ++ body, rest)

def consChar (c : Char) (quoted : Bool) : Word → Word
  | .text cs q :: rest => if q = quoted then .text (c :: cs) q :: rest else .text [c] quoted :: .text cs q :: rest
  | w => .text [c] quoted :: w

def takeCut : List Char → Option (Cut × List Char)
  | '#' :: '#' :: cs => some (⟨false, true⟩, cs)
  | '#' :: cs => some (⟨false, false⟩, cs)
  | '%' :: '%' :: cs => some (⟨true, true⟩, cs)
  | '%' :: cs => some (⟨true, false⟩, cs)
  | _ => none

def fallbackOf? : Char → Option Fallback
  | '-' => some .other
  | '=' => some .assign
  | '+' => some .instead
  | '?' => some .fail
  | _ => none

def takeFallback : List Char → Option (Fallback × Bool × List Char)
  | ':' :: c :: cs => (fallbackOf? c).map (fun k => (k, true, cs))
  | c :: cs => (fallbackOf? c).map (fun k => (k, false, cs))
  | [] => none

def lines (cs : List Char) : Nat := cs.count '\n'

mutual

/-- The parts of a word up to its end. The first number is the line that the whole text ends in. -/
def takeParts (last : Nat) : Nat → Surrounding → List Char → Except String (Word × List Char)
  | 0, _, _ => .error "Unterminated quoted string"
  | fuel + 1, place, cs =>
    let quoted := place.isQuoted
    let onward (f : Word → Word) (rest : List Char) : Except String (Word × List Char) := do
      let (w, rest) ← takeParts last fuel place rest
      return (f w, rest)
    match cs with
    | [] =>
      match place.lack with
      | some lack => .error lack
      | none => .ok ([], [])
    | '"' :: rest =>
      if place = .quotes then .ok ([], rest)
      else if place = .document then onward (consChar '"' true) rest
      else do
        let (inner, rest) ← takeParts last fuel .quotes rest
        onward ((if inner.isEmpty then [.text [] true] else inner) ++ ·) rest
    | '\\' :: '\n' :: rest => takeParts last fuel place rest
    | '\\' :: c :: rest =>
      if place.escapes c then onward (consChar c true) rest else onward (consChar '\\' true) (c :: rest)
    | '$' :: rest => takeExpansion last fuel place rest
    | '\'' :: rest =>
      if quoted then onward (consChar '\'' true) rest
      else
        match rest.dropWhile (· != '\'') with
        | [] => .error "Unterminated quoted string"
        | _ :: after => onward (.text (rest.takeWhile (· != '\'')) true :: ·) after
    | c :: rest =>
      if place = .bare && (isSpace c || isOperatorChar c) then .ok ([], c :: rest)
      else if (place = .braces true || place = .braces false) && c = '}' then .ok ([], rest)
      else onward (consChar c quoted) rest

def takeExpansion (last : Nat) : Nat → Surrounding → List Char → Except String (Word × List Char)
  | 0, _, _ => .error "Unterminated quoted string"
  | fuel + 1, place, cs => do
    let quoted := place.isQuoted
    let (part, rest) ←
      match cs with
      | '(' :: '(' :: rest =>
        match takeBracketed {} rest with
        | some (formula, ')' :: rest) =>
          pure (.number (← takeParts last fuel .document formula).1 quoted, rest)
        | _ => throw "Missing '))'"
      | '(' :: rest =>
        match takeBracketed {} rest with
        | some (script, after) => pure (Part.output script (last - lines rest) quoted, after)
        | none => throw "end of file unexpected (expecting \")\")"
      | '{' :: rest => takeBraced last fuel quoted rest
      | _ => pure (((takeName cs).map (fun (name, rest) => (Part.value name quoted, rest))).getD (.text ['$'] quoted, cs))
    let (w, rest) ← takeParts last fuel place rest
    return (part :: w, rest)

def takeBraced (last : Nat) : Nat → Bool → List Char → Except String (Part × List Char)
  | 0, _, _ => .error "Missing '\x7d'"
  | fuel + 1, quoted, cs =>
    match takeName cs with
    | none => .error "Bad substitution"
    | some (name, '}' :: rest) => .ok (.value name quoted, rest)
    | some (name, rest) =>
      match takeFallback rest, takeCut rest with
      | some (kind, emptyToo, rest), _ => do
        let (w, rest) ← takeParts last fuel (.braces quoted) rest
        return (.fallback name kind emptyToo w quoted, rest)
      | none, some (cut, rest) => do
        let (w, rest) ← takeParts last fuel (.braces false) rest
        return (.trimmed name cut w quoted, rest)
      | none, none => .error "Bad substitution"

end

def partsOf (last : Nat) (place : Surrounding) (cs : List Char) : Except String (Word × List Char) :=
  takeParts last (3 * cs.length + 6) place cs

def ofWord (w : Word) (rest : List Char) : Lexeme :=
  match w, rest with
  | [.text [c] false], '<' :: _ | [.text [c] false], '>' :: _ =>
    if c.isDigit then .descriptor (c.toNat - '0'.toNat) else .word w
  | _, _ => .word w

def takeDocuments (last : Nat) : List Pending → List Char → Except String (List Word × List Char)
  | [], cs => .ok ([], cs)
  | p :: ps, cs => do
    let (body, rest) := takeDocument p (cs.length + 1) cs
    let bodyEnd := last - lines cs + lines body
    let w ← if p.literal then pure [.text body true] else (·.1) <$> partsOf bodyEnd .document body
    let (ws, rest) ← takeDocuments last ps rest
    return (w :: ws, rest)

/-- The tokens of a text. The second list holds the texts for operators in front of it, the last one first. -/
def takeTokens (last : Nat) : Nat → List Pending → List Char → List Token × List Word
  | 0, waiting, cs => ([⟨.finish, last - lines cs⟩], waiting.map (fun _ => []))
  | fuel + 1, waiting, cs =>
    let nothing := waiting.map (fun _ => ([] : Word))
    let cons (l : Lexeme) (rest : List Char) (r : List Token × List Word) := (⟨l, last - lines rest⟩ :: r.1, r.2)
    match cs with
    | [] => ([⟨.finish, last⟩], nothing)
    | c :: rest =>
      if isSpace c then takeTokens last fuel waiting rest
      else if c = '#' then takeTokens last fuel waiting (rest.dropWhile (· != '\n'))
      else if c = '\\' && rest.head? == some '\n' then takeTokens last fuel waiting rest.tail
      else if c = '\n' then
        match takeDocuments last waiting.reverse rest with
        | .ok (ws, after) => cons (.operator "\n") rest ((takeTokens last fuel [] after).1, ws.reverse)
        | .error e => ([⟨.broken e, last⟩], nothing)
      else
        match takeOperator cs with
        | some (o, rest) =>
          if o = "<<" || o = "<<-" then
            match partsOf last .bare (rest.dropWhile isSpace) with
            | .ok (w, after) =>
              let (delimiter, literal) := Word.delimiter w
              let (ts, ws) := takeTokens last fuel (⟨delimiter, literal, o == "<<-"⟩ :: waiting) after
              cons (.operator "<<") rest (cons (.document (ws.headD [])) after (ts, ws.tail))
            | .error e => ([⟨.broken e, last⟩], nothing)
          else cons (.operator o) rest (takeTokens last fuel waiting rest)
        | none =>
          match partsOf last .bare cs with
          | .ok (w, rest) => cons (ofWord w rest) rest (takeTokens last fuel waiting rest)
          | .error e => ([⟨.broken e, last⟩], nothing)

def tokens (first : Nat) (cs : List Char) : List Token := (takeTokens (first + lines cs) (cs.length + 1) [] cs).1

end NativeBuild.Script
