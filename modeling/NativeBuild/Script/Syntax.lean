namespace NativeBuild.Script

structure Cut where
  atEnd : Bool
  longest : Bool
  deriving DecidableEq, Repr

inductive Fallback where
  | other
  | assign
  | instead
  | fail
  deriving DecidableEq, Repr

inductive Part where
  | text (cs : List Char) (quoted : Bool)
  | value (name : String) (quoted : Bool)
  | trimmed (name : String) (cut : Cut) (pattern : List Part) (quoted : Bool)
  | fallback (name : String) (kind : Fallback) (emptyToo : Bool) (word : List Part) (quoted : Bool)
  | output (script : List Char) (line : Nat) (quoted : Bool)
  | number (formula : List Part) (quoted : Bool)

abbrev Word := List Part

def Word.plain? : Word → Option (List Char)
  | [] => some []
  | .text cs false :: rest => (Word.plain? rest).map (cs ++ ·)
  | _ => none

def Word.delimiter : Word → List Char × Bool
  | [] => ([], false)
  | .text cs quoted :: rest =>
    let (more, q) := Word.delimiter rest
    (cs ++ more, quoted || q)
  | _ :: rest => Word.delimiter rest

inductive RedirectionKind where
  | write
  | append
  | read
  | duplicate
  | document
  deriving DecidableEq, Repr

structure Redirection where
  descriptor : Nat
  kind : RedirectionKind
  target : Word

mutual

inductive Statement where
  | simple (line : Nat) (assignments : List (String × Word)) (words : List Word) (redirections : List Redirection)
  | both (a b : Statement)
  | either (a b : Statement)
  | negated (a : Statement)
  | piped (a b : Statement)
  | redirected (line : Nat) (a : Statement) (redirections : List Redirection)
  | loop (line : Nat) (name : String) (words : Option (List Word)) (body : List Statement)
  | rounds (holding : Bool) (test body : List Statement)
  | choice (line : Nat) (subject : Word) (arms : List Arm)
  | condition (test yes no : List Statement)
  | group (body : List Statement)
  | apart (body : List Statement)
  | define (name : String) (body : Statement)

inductive Arm where
  | mk (patterns : List Word) (body : List Statement)

end

def keywords : List String :=
  ["!", "case", "do", "done", "elif", "else", "esac", "fi", "for", "if", "in", "then", "until", "while", "\x7b",
    "\x7d"]

def specialCommands : List String := [":", "break", "continue", "exec", "exit", "export", "return", "set", "shift", "unset"]

end NativeBuild.Script
