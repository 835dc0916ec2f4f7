import NativeBuild.Script.Token

namespace NativeBuild.Script

structure Fault where
  line : Nat
  cause : String
  deriving DecidableEq, Repr

abbrev Taken (α : Type) := α × List Token

def Token.plain? (t : Token) : Option String :=
  match t.lexeme with
  | .word w => w.plain?.map String.ofList
  | _ => none

def Token.isOperator (t : Token) (s : String) : Bool :=
  match t.lexeme with
  | .operator o => o == s
  | _ => false

def Token.title (t : Token) : String :=
  match t.lexeme with
  | .operator "\n" => "newline"
  | .operator o => if o.startsWith "<" || o.startsWith ">" then "redirection" else "\"" ++ o ++ "\""
  | .descriptor _ => "redirection"
  | .finish => "end of file"
  | _ =>
    match t.plain? with
    | some s => if keywords.contains s then "\"" ++ s ++ "\"" else "word"
    | none => "word"

def refuse {α : Type} : List Token → Except Fault α
  | [] => .error ⟨0, "end of file unexpected"⟩
  | t :: _ =>
    match t.lexeme with
    | .broken why => .error ⟨t.line, why⟩
    | _ => .error ⟨t.line, t.title ++ " unexpected"⟩

def skipLines : List Token → List Token
  | t :: ts => if t.isOperator "\n" then skipLines ts else t :: ts
  | [] => []

def expect (keyword : String) (ts : List Token) : Except Fault (List Token) :=
  match ts with
  | t :: rest => if t.plain? == some keyword then .ok rest else refuse ts
  | [] => refuse ts

def expectOperator (o : String) (ts : List Token) : Except Fault (List Token) :=
  match ts with
  | t :: rest => if t.isOperator o then .ok rest else refuse ts
  | [] => refuse ts

def closes : List Token → Bool
  | [] => true
  | t :: _ =>
    match t.lexeme with
    | .operator o => o == ")" || o == ";;"
    | .finish => true
    | _ => (t.plain?.map ["done", "esac", "fi", "then", "else", "elif", "do", "\x7d"].contains).getD false

def redirectionKind? : String → Option (RedirectionKind × Nat)
  | ">" => some (.write, 1)
  | ">>" => some (.append, 1)
  | "<" => some (.read, 0)
  | ">&" => some (.duplicate, 1)
  | "<&" => some (.duplicate, 0)
  | "<<" => some (.document, 0)
  | _ => none

def takeRedirection (ts : List Token) : Except Fault (Option (Redirection × List Token)) :=
  let (number, after) : Option Nat × List Token :=
    match ts with
    | ⟨.descriptor n, _⟩ :: rest => (some n, rest)
    | _ => (none, ts)
  match after with
  | ⟨.operator o, _⟩ :: rest =>
    match redirectionKind? o with
    | none => .ok none
    | some (kind, default) =>
      match rest with
      | ⟨.word target, _⟩ :: rest | ⟨.document target, _⟩ :: rest =>
        .ok (some (⟨number.getD default, kind, target⟩, rest))
      | _ => refuse rest
  | _ => .ok none

def takeRedirections : Nat → List Token → Except Fault (Taken (List Redirection))
  | 0, ts => .ok ([], ts)
  | fuel + 1, ts => do
    match ← takeRedirection ts with
    | some (r, ts) =>
      let (rs, ts) ← takeRedirections fuel ts
      return (r :: rs, ts)
    | none => return ([], ts)

def assignment? : Word → Option (String × Word)
  | .text cs false :: rest =>
    match cs.takeWhile isNameChar, cs.dropWhile isNameChar with
    | c :: name, '=' :: value =>
      if c.isDigit then none
      else some (String.ofList (c :: name), if value = [] then rest else .text value false :: rest)
    | _, _ => none
  | _ => none

structure Simple where
  assignments : List (String × Word) := []
  words : List Word := []
  redirections : List Redirection := []

def Simple.isEmpty (s : Simple) : Bool := s.assignments.isEmpty && s.words.isEmpty && s.redirections.isEmpty

def takeSimple : Nat → Simple → List Token → Except Fault (Taken Simple)
  | 0, s, ts => .ok (s, ts)
  | fuel + 1, s, ts => do
    match ← takeRedirection ts with
    | some (r, ts) => takeSimple fuel { s with redirections := s.redirections ++ [r] } ts
    | none =>
      match ts with
      | ⟨.word w, _⟩ :: rest =>
        match if s.words.isEmpty then assignment? w else none with
        | some a => takeSimple fuel { s with assignments := s.assignments ++ [a] } rest
        | none => takeSimple fuel { s with words := s.words ++ [w] } rest
      | ⟨.broken _, _⟩ :: _ => refuse ts
      | _ => return (s, ts)

def takeWords : List Token → List Word × List Token
  | ⟨.word w, _⟩ :: ts =>
    let (ws, ts) := takeWords ts
    (w :: ws, ts)
  | ts => ([], ts)

def takePatterns : Nat → List Token → Except Fault (Taken (List Word))
  | 0, ts => refuse ts
  | fuel + 1, ts =>
    match ts with
    | ⟨.word w, _⟩ :: ⟨.operator "|", _⟩ :: rest => do
      let (ws, rest) ← takePatterns fuel rest
      return (w :: ws, rest)
    | ⟨.word w, _⟩ :: rest => (expectOperator ")" rest).map (fun rest => ([w], rest))
    | _ => refuse ts

mutual

def takeList : Nat → List Token → Except Fault (Taken (List Statement))
  | 0, ts => refuse ts
  | fuel + 1, ts => do
    let (s, ts) ← takeAndOr fuel (skipLines ts)
    match ts with
    | ⟨.operator ";", _⟩ :: rest | ⟨.operator "\n", _⟩ :: rest =>
      let rest := skipLines rest
      if closes rest then return ([s], rest)
      else
        let (ss, rest) ← takeList fuel rest
        return (s :: ss, rest)
    | _ => return ([s], ts)

def takeAndOr : Nat → List Token → Except Fault (Taken Statement)
  | 0, ts => refuse ts
  | fuel + 1, ts => do
    let (s, ts) ← takePipe fuel ts
    takeAndOrRest fuel s ts

def takeAndOrRest : Nat → Statement → List Token → Except Fault (Taken Statement)
  | 0, _, ts => refuse ts
  | fuel + 1, s, ts =>
    match ts with
    | ⟨.operator "&&", _⟩ :: rest => do
      let (t, ts) ← takePipe fuel (skipLines rest)
      takeAndOrRest fuel (.both s t) ts
    | ⟨.operator "||", _⟩ :: rest => do
      let (t, ts) ← takePipe fuel (skipLines rest)
      takeAndOrRest fuel (.either s t) ts
    | _ => .ok (s, ts)

def takePipe : Nat → List Token → Except Fault (Taken Statement)
  | 0, ts => refuse ts
  | fuel + 1, ts =>
    match expect "!" ts with
    | .ok rest => do
      let (s, ts) ← takePiped fuel rest
      return (.negated s, ts)
    | .error _ => takePiped fuel ts

def takePiped : Nat → List Token → Except Fault (Taken Statement)
  | 0, ts => refuse ts
  | fuel + 1, ts => do
    let (s, ts) ← takeCommand fuel ts
    match ts with
    | ⟨.operator "|", _⟩ :: rest =>
      let (t, ts) ← takePiped fuel (skipLines rest)
      return (.piped s t, ts)
    | _ => return (s, ts)

def takeCommand : Nat → List Token → Except Fault (Taken Statement)
  | 0, ts => refuse ts
  | fuel + 1, ts =>
    match ts with
    | [] => refuse ts
    | t :: rest =>
      let closed (r : Except Fault (Taken Statement)) : Except Fault (Taken Statement) := do
        let (s, rest) ← r
        let (rs, rest) ← takeRedirections (rest.length + 1) rest
        return (if rs.isEmpty then s else .redirected t.line s rs, rest)
      if t.isOperator "(" then
        closed (do
          let (body, ts) ← takeList fuel rest
          return (.apart body, ← expectOperator ")" ts))
      else
        match t.plain? with
        | some "\x7b" =>
          closed (do
            let (body, ts) ← takeList fuel rest
            return (.group body, ← expect "\x7d" ts))
        | some "for" => closed (takeLoop fuel t.line rest)
        | some "case" => closed (takeChoice fuel t.line rest)
        | some "if" => closed (takeCondition fuel rest)
        | some "while" => closed (takeRounds fuel true rest)
        | some "until" => closed (takeRounds fuel false rest)
        | word =>
          match word, rest with
          | some name, ⟨.operator "(", _⟩ :: after => do
            let after ← expectOperator ")" after
            if !isName name.toList || specialCommands.contains name then throw ⟨t.line, "Bad function name"⟩
            let (body, after) ← takeCommand fuel (skipLines after)
            return (.define name body, after)
          | _, _ =>
            if (word.map (fun s => keywords.contains s && s != "in")).getD false then refuse ts
            else do
              let (s, rest) ← takeSimple (rest.length + 2) {} ts
              if s.isEmpty then refuse ts
              else return (.simple t.line s.assignments s.words s.redirections, rest)

def takeLoop : Nat → Nat → List Token → Except Fault (Taken Statement)
  | 0, _, ts => refuse ts
  | fuel + 1, line, ts =>
    match ts with
    | t :: rest => do
      let name := t.plain?.getD ""
      if !isName name.toList then throw ⟨t.line, "Bad for loop variable"⟩
      let (words, rest) ←
        match expect "in" (skipLines rest) with
        | .ok rest =>
          let (ws, rest) := takeWords rest
          match rest with
          | ⟨.operator ";", _⟩ :: rest | ⟨.operator "\n", _⟩ :: rest => pure (some ws, rest)
          | _ => refuse rest
        | .error _ =>
          match skipLines rest with
          | ⟨.operator ";", _⟩ :: rest => pure (none, rest)
          | rest => pure (none, rest)
      let (body, rest) ← takeList fuel (← expect "do" (skipLines rest))
      return (.loop line name words body, ← expect "done" rest)
    | [] => refuse ts

def takeRounds : Nat → Bool → List Token → Except Fault (Taken Statement)
  | 0, _, ts => refuse ts
  | fuel + 1, holding, ts => do
    let (test, ts) ← takeList fuel ts
    let (body, ts) ← takeList fuel (← expect "do" ts)
    return (.rounds holding test body, ← expect "done" ts)

def takeChoice : Nat → Nat → List Token → Except Fault (Taken Statement)
  | 0, _, ts => refuse ts
  | fuel + 1, line, ts =>
    match ts with
    | ⟨.word subject, _⟩ :: rest => do
      let rest ← expect "in" (skipLines rest)
      let (arms, rest) ← takeArms fuel (skipLines rest)
      return (.choice line subject arms, rest)
    | _ => refuse ts

def takeArms : Nat → List Token → Except Fault (Taken (List Arm))
  | 0, ts => refuse ts
  | fuel + 1, ts =>
    match expect "esac" ts with
    | .ok rest => .ok ([], rest)
    | .error _ => do
      let (patterns, ts) ← takePatterns (ts.length + 1) ((expectOperator "(" ts).toOption.getD ts)
      let ts := skipLines ts
      let (body, ts) ← if closes ts then pure ([], ts) else takeList fuel ts
      match ts with
      | ⟨.operator ";;", _⟩ :: rest =>
        let (arms, ts) ← takeArms fuel (skipLines rest)
        return (.mk patterns body :: arms, ts)
      | _ => return ([.mk patterns body], ← expect "esac" ts)

def takeCondition : Nat → List Token → Except Fault (Taken Statement)
  | 0, ts => refuse ts
  | fuel + 1, ts => do
    let (test, ts) ← takeList fuel ts
    let (yes, ts) ← takeList fuel (← expect "then" ts)
    match expect "elif" ts, expect "else" ts with
    | .ok rest, _ =>
      let (no, ts) ← takeCondition fuel rest
      return (.condition test yes [no], ts)
    | .error _, .ok rest =>
      let (no, ts) ← takeList fuel rest
      return (.condition test yes no, ← expect "fi" ts)
    | .error _, .error _ => return (.condition test yes [], ← expect "fi" ts)

end

def takeLine : Nat → Nat → List Token → Except Fault (Taken (List Statement))
  | 0, _, ts => refuse ts
  | length + 1, fuel, ts => do
    let (s, ts) ← takeAndOr fuel ts
    match ts with
    | ⟨.operator ";", _⟩ :: rest =>
      match rest with
      | ⟨.operator "\n", _⟩ :: _ | ⟨.finish, _⟩ :: _ => return ([s], rest)
      | _ =>
        let (ss, rest) ← takeLine length fuel rest
        return (s :: ss, rest)
    | ⟨.operator "\n", _⟩ :: _ | ⟨.finish, _⟩ :: _ => return ([s], ts)
    | _ => refuse ts

/-- A script is read line by line, so the lines in front of a fault are commands all the same. -/
structure Commands where
  lines : List (List Statement)
  fault : Option Fault := none

def takeCommands : Nat → Nat → List Token → Commands
  | 0, _, _ => ⟨[], none⟩
  | length + 1, fuel, ts =>
    match skipLines ts with
    | [] | ⟨.finish, _⟩ :: _ => ⟨[], none⟩
    | ts =>
      match takeLine ts.length fuel ts with
      | .error fault => ⟨[], some fault⟩
      | .ok (line, rest) =>
        let more := takeCommands length fuel rest
        ⟨line :: more.lines, more.fault⟩

def read (first : Nat) (cs : List Char) : Commands :=
  let ts := tokens first cs
  takeCommands (ts.length + 1) (8 * ts.length + 8) ts

end NativeBuild.Script
