import NativeBuild.Files.Access
import NativeBuild.Text.Decimal
import NativeBuild.Text.Split

namespace NativeBuild.Glob

structure Span where
  first : Char
  last : Char
  deriving DecidableEq, Repr

inductive Token where
  | char (c : Char)
  | anyChar
  | anyRun
  | anyDepth
  | oneOf (spans : List Span)
  | noneOf (spans : List Span)
  deriving DecidableEq, Repr

inductive Step where
  | anyDepth
  | name (tokens : List Token)
  deriving DecidableEq, Repr

def inSpans (spans : List Span) (c : Char) : Bool := spans.any (fun s => s.first ≤ c && c ≤ s.last)

def Token.accepts : Token → Char → Bool
  | .char d, c => c == d
  | .anyChar, _ => true
  | .anyRun, _ => true
  | .anyDepth, _ => true
  | .oneOf spans, c => inSpans spans c
  | .noneOf spans, c => !inSpans spans c

def suffixes : List Char → List (List Char)
  | [] => [[]]
  | c :: cs => (c :: cs) :: suffixes cs

def Token.after (t : Token) : List Char → Option (List Char)
  | c :: cs => if t.accepts c then some cs else none
  | [] => none

/-- What a token leaves of some rests of a text, of which each is an end of those before it. A run leaves
all ends of the longest. -/
def Token.leave (t : Token) (rests : List (List Char)) : List (List Char) :=
  if t = .anyRun then (rests.head?.map suffixes).getD [] else rests.filterMap t.after

def restsAfter : List Token → List (List Char) → List (List Char)
  | [], rests => rests
  | t :: ts, rests => restsAfter ts (t.leave rests)

def isMatch (ts : List Token) (cs : List Char) : Bool := (restsAfter ts [cs]).any List.isEmpty

abbrev Nested (rests : List (List Char)) : Prop := rests.Pairwise (fun a b => b <:+ a)

theorem mem_suffixes {s cs : List Char} : s ∈ suffixes cs ↔ s <:+ cs := by
  induction cs with
  | nil => simp [suffixes]
  | cons c cs ih => simp [suffixes, ih, List.suffix_cons_iff]

theorem nested_suffixes (cs : List Char) : Nested (suffixes cs) := by
  induction cs with
  | nil => simp [suffixes, Nested]
  | cons c cs ih =>
    exact List.Pairwise.cons (fun s hs => (mem_suffixes.1 hs).trans (List.suffix_cons c cs)) ih

theorem Token.after_suffix {t : Token} {a b r s : List Char} (h : b <:+ a) (ha : t.after a = some r)
    (hb : t.after b = some s) : s <:+ r := by
  cases a with
  | nil => simp [Token.after] at ha
  | cons x a =>
    cases b with
    | nil => simp [Token.after] at hb
    | cons y b =>
      simp only [Token.after] at ha hb
      split at ha <;> split at hb <;> simp_all
      rcases List.suffix_cons_iff.1 h with h | h
      · simp_all
      · exact (List.suffix_cons y _).trans h

theorem Token.nested_leave {t : Token} {rests : List (List Char)} (h : Nested rests) :
    Nested (t.leave rests) := by
  unfold Token.leave
  split
  · cases rests with
    | nil => simp [Nested]
    | cons a rests => exact nested_suffixes a
  · exact List.Pairwise.filterMap t.after (fun a b (hab : b <:+ a) r hr s hs => Token.after_suffix hab hr hs) h

theorem mem_leave_anyRun {rests : List (List Char)} (h : Nested rests) {r : List Char} :
    r ∈ Token.anyRun.leave rests ↔ ∃ a ∈ rests, r <:+ a := by
  cases rests with
  | nil => simp [Token.leave]
  | cons a rests =>
    simp only [Token.leave, if_true, List.head?_cons, Option.map_some, Option.getD_some, mem_suffixes]
    constructor
    · exact fun hr => ⟨a, List.mem_cons_self, hr⟩
    · rintro ⟨b, hb, hr⟩
      rcases List.mem_cons.1 hb with rfl | hb
      · exact hr
      · exact hr.trans (List.rel_of_pairwise_cons h hb)

theorem mem_restsAfter {ts : List Token} {rests : List (List Char)} (h : Nested rests) {r : List Char} :
    r ∈ restsAfter ts rests ↔ ∃ a ∈ rests, r ∈ restsAfter ts [a] := by
  induction ts generalizing rests with
  | nil => simp [restsAfter]
  | cons t ts ih =>
    have single (a : List Char) : Nested [a] := List.pairwise_singleton _ a
    simp only [restsAfter]
    rw [ih (Token.nested_leave h)]
    constructor
    · rintro ⟨b, hb, hr⟩
      by_cases ht : t = .anyRun
      · subst ht
        obtain ⟨a, ha, hab⟩ := (mem_leave_anyRun h).1 hb
        exact ⟨a, ha, (ih (Token.nested_leave (single a))).2
          ⟨b, (mem_leave_anyRun (single a)).2 ⟨a, List.mem_singleton_self a, hab⟩, hr⟩⟩
      · simp only [Token.leave, ht, if_false] at hb
        obtain ⟨a, ha, hab⟩ := List.mem_filterMap.1 hb
        refine ⟨a, ha, (ih (Token.nested_leave (single a))).2 ⟨b, ?_, hr⟩⟩
        simp [Token.leave, ht, hab]
    · rintro ⟨a, ha, hr⟩
      obtain ⟨b, hb, hr⟩ := (ih (Token.nested_leave (single a))).1 hr
      refine ⟨b, ?_, hr⟩
      by_cases ht : t = .anyRun
      · subst ht
        obtain ⟨a', ha', hab⟩ := (mem_leave_anyRun (single a)).1 hb
        exact (mem_leave_anyRun h).2 ⟨a, ha, by simpa [List.mem_singleton.1 ha'] using hab⟩
      · simp only [Token.leave, ht, if_false] at hb ⊢
        obtain ⟨a', ha', hab⟩ := List.mem_filterMap.1 hb
        exact List.mem_filterMap.2 ⟨a, ha, by simpa [List.mem_singleton.1 ha'] using hab⟩

theorem isMatch_iff {ts : List Token} {cs : List Char} : isMatch ts cs = true ↔ [] ∈ restsAfter ts [cs] := by
  simp [isMatch, List.any_eq_true]

@[simp] theorem isMatch_nil {cs : List Char} : isMatch [] cs = cs.isEmpty := by simp [isMatch, restsAfter]

theorem isMatch_anyRun {ts : List Token} {cs : List Char} :
    isMatch (.anyRun :: ts) cs = true ↔ ∃ s, s <:+ cs ∧ isMatch ts s = true := by
  rw [isMatch_iff, restsAfter, mem_restsAfter (Token.nested_leave (List.pairwise_singleton _ cs))]
  simp [mem_leave_anyRun (List.pairwise_singleton _ cs), isMatch_iff]

theorem isMatch_cons {t : Token} (ht : t ≠ .anyRun) {ts : List Token} {cs : List Char} :
    isMatch (t :: ts) cs = true ↔ ∃ r, t.after cs = some r ∧ isMatch ts r = true := by
  rw [isMatch_iff, restsAfter, mem_restsAfter (Token.nested_leave (List.pairwise_singleton _ cs))]
  simp [Token.leave, ht, isMatch_iff]

inductive Fault where
  | tooManyStars (position : Nat)
  | depthInsideStep (position : Nat)
  | unclosedRange (position : Nat)
  deriving DecidableEq, Repr

namespace Fault

def position : Fault → Nat
  | tooManyStars n => n
  | depthInsideStep n => n
  | unclosedRange n => n

def reason : Fault → String
  | tooManyStars _ => "wildcards are either regular `*` or recursive `**`"
  | depthInsideStep _ => "recursive wildcards must form a single path component"
  | unclosedRange _ => "invalid range pattern"

def message (f : Fault) : String :=
  "Pattern syntax error near position " ++ String.ofList (Text.decimal f.position) ++ ": " ++ f.reason

end Fault

def readSpans : List Char → List Span
  | a :: '-' :: b :: rest => ⟨a, b⟩ :: readSpans rest
  | a :: rest => ⟨a, a⟩ :: readSpans rest
  | [] => []

def takeBracket : List Char → Option (List Char × List Char)
  | [] => none
  | c :: cs => (Text.cutFirst ']' cs).map (fun (inner, rest) => (c :: inner, rest))

/-- One token at the front of a text, the characters that spell it, and what follows. A doubled star
stands for any depth only where it is a whole step; the separator after it belongs to it. -/
structure Front where
  token : Token
  width : Nat
  rest : List Char
  deriving DecidableEq, Repr

def readStars (before : Option Char) (position : Nat) (cs : List Char) : Except Fault Front :=
  match cs.takeWhile (· == '*'), cs.dropWhile (· == '*') with
  | [_], rest => .ok ⟨.anyRun, 1, rest⟩
  | [_, _], rest =>
    if before.getD '/' = '/' then
      match rest with
      | [] => .ok ⟨.anyDepth, 2, []⟩
      | '/' :: rest => .ok ⟨.anyDepth, 3, rest⟩
      | _ => .error (.depthInsideStep (position + 2))
    else .error (.depthInsideStep (position - 1))
  | _, _ => .error (.tooManyStars (position + 2))

def readFront (before : Option Char) (position : Nat) (c : Char) (cs : List Char) : Except Fault Front :=
  match c, cs with
  | '?', _ => .ok ⟨.anyChar, 1, cs⟩
  | '*', _ => readStars before position (c :: cs)
  | '[', '!' :: more =>
    match takeBracket more with
    | some (inner, rest) => .ok ⟨.noneOf (readSpans inner), inner.length + 3, rest⟩
    | none => .error (.unclosedRange position)
  | '[', _ =>
    match takeBracket cs with
    | some (inner, rest) => .ok ⟨.oneOf (readSpans inner), inner.length + 2, rest⟩
    | none => .error (.unclosedRange position)
  | _, _ => .ok ⟨.char c, 1, cs⟩

def readTokens : Nat → Option Char → Nat → List Char → Except Fault (List Token)
  | 0, _, _, _ => .ok []
  | _, _, _, [] => .ok []
  | n + 1, before, position, c :: cs => do
    let front ← readFront before position c cs
    let width := front.width
    let tokens ← readTokens n ((c :: cs)[width - 1]?) (position + width) front.rest
    return front.token :: tokens

def tokensOf (cs : List Char) : Except Fault (List Token) := readTokens cs.length none 0 cs

def readStep (cs : List Char) : Except Fault Step := do
  let tokens ← tokensOf cs
  return if tokens = [.anyDepth] then .anyDepth else .name tokens

structure Pattern where
  absolute : Bool
  steps : List Step
  directory : Bool
  deriving DecidableEq, Repr

def readPattern (cs : List Char) : Except Fault Pattern := do
  let _ ← tokensOf cs
  let absolute := cs.head? == some '/'
  let steps ← (Text.terminatedPieces '/' (if absolute then cs.drop 1 else cs)).mapM readStep
  return ⟨absolute, steps, cs.getLast? == some '/'⟩

def literal? (tokens : List Token) : Option (List Char) :=
  tokens.mapM (fun t => match t with | .char c => some c | _ => none)

def here : Path := ⟨"."⟩

def extend (p : Path) (name : String) : Path := if p.Same here then ⟨name⟩ else p.child name

def childrenOf (t : FileTree) (p : Path) : List Path :=
  if p.Same here then (t.children p).map (fun c => ⟨c.fileName?.getD c.text⟩) else t.children p

def descend (t : FileTree) : Nat → Path → List Path
  | 0, _ => []
  | n + 1, p => (childrenOf t p).flatMap (fun c => c :: descend t n c)

def hasName (tokens : List Token) (p : Path) : Bool :=
  match p.fileName? with
  | some name => isMatch tokens name.toList
  | none => false

def dotEntries (tokens : List Token) : List String :=
  if tokens.head? = some (.char '.') then [".", ".."].filter (fun s => isMatch tokens s.toList) else []

def literalEntry (t : FileTree) (p : Path) (name : String) : List Path :=
  let next := extend p name
  if name = "." || name = ".." then (if t.isDirectory p then [next] else [])
  else if t.exists? next then [next] else []

def entries (t : FileTree) (p : Path) (tokens : List Token) : List Path :=
  match literal? tokens with
  | some name => literalEntry t p (String.ofList name)
  | none =>
    if t.isDirectory p then
      (dotEntries tokens).map p.child ++ (childrenOf t p).filter (hasName tokens)
    else []

/-- The paths that steps lead to. Any depth of directories at the end leads to directories only,
which no search is for. -/
def expand (t : FileTree) : Bool → List Step → Path → List Path
  | _, [], p => [p]
  | false, .name tokens :: rest, p => (entries t p tokens).flatMap (expand t false rest)
  | true, .name tokens :: rest, p =>
    ((descend t t.size p).filter (hasName tokens)).flatMap (expand t false rest)
  | _, .anyDepth :: rest, p => if rest = [] then [] else expand t true rest p

def files (t : FileTree) (pattern : String) : Except Fault (List Path) := do
  let p ← readPattern pattern.toList
  if p.directory || pattern = "" then return []
  else
    let start : Path := if p.absolute then ⟨"/"⟩ else here
    return Path.sort ((expand t false p.steps start).filter t.isFile)

structure BadPattern where
  pattern : String
  fault : Fault
  deriving DecidableEq, Repr

namespace BadPattern

def message (e : BadPattern) : String := "invalid glob pattern: " ++ e.pattern

def chain (e : BadPattern) : String := e.message ++ ": " ++ e.fault.message

end BadPattern

def filesIn (t : FileTree) (dir : Path) (mask : String) : Except BadPattern (List Path) :=
  let pattern := (dir.child mask).text
  match files t pattern with
  | .ok ps => .ok ps
  | .error fault => .error ⟨pattern, fault⟩

end NativeBuild.Glob
