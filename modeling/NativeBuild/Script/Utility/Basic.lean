import NativeBuild.Files.Update
import NativeBuild.Machine

namespace NativeBuild.Script

inductive Utility where
  | shell
  | environment
  | yes
  | no
  | echo
  | printf
  | test
  | bracket
  | workingDirectory
  | cat
  | touch
  | remove
  | makeDirectory
  | copy
  | move
  | baseName
  | directoryName
  | edit
  | sleep
  deriving DecidableEq, Repr

namespace Utility

def names : List (String × Utility) :=
  [("sh", shell), ("dash", shell), ("bash", shell), ("env", environment), ("true", yes), ("false", no),
    ("echo", echo), ("printf", printf), ("test", test), ("[", bracket), ("pwd", workingDirectory), ("cat", cat),
    ("touch", touch), ("rm", remove), ("mkdir", makeDirectory), ("cp", copy), ("mv", move), ("basename", baseName),
    ("dirname", directoryName), ("sed", edit), ("sleep", sleep)]

def ofName? (s : String) : Option Utility := (names.find? (fun e => e.1 = s)).map (·.2)

def name (u : Utility) : String := ((names.find? (fun e => e.2 = u)).map (·.1)).getD ""

def isBuiltIn : Utility → Bool
  | yes | no | echo | printf | test | bracket => true
  | _ => false

end Utility

def supposedPlace (t : FileTree) (p : Path) : Place :=
  p.steps.foldl FileTree.step (if p.isAbsolute then [] else t.workingDirectory)

def utilityAt? (t : FileTree) (p : Path) : Except FileError Utility :=
  match supposedPlace t p with
  | ["usr", "bin", name] | ["bin", name] =>
    match Utility.ofName? name with
    | some u => if p.endsInSeparator then .error .notADirectory else .ok u
    | none => .error .notFound
  | "usr" :: "bin" :: name :: _ | "bin" :: name :: _ =>
    .error (if (Utility.ofName? name).isSome then .notADirectory else .notFound)
  | _ => .error .notFound

structure Effect where
  status : Nat := 0
  files : FileTree
  out : List UInt8 := []
  faults : List String := []
  rest : List UInt8 := []

def bytesOf (s : String) : List UInt8 := Text.encodeUtf8 s.toList

structure Printed where
  isError : Bool
  bytes : List UInt8
  deriving DecidableEq, Repr

def Effect.printed (e : Effect) (told : String → String) : List Printed :=
  ⟨false, e.out⟩ :: e.faults.map (fun fault => ⟨true, bytesOf (told fault)⟩)

def bytesIn (isError : Bool) (ps : List Printed) : List UInt8 :=
  (ps.filter (fun p => p.isError = isError)).flatMap (·.bytes)

def splitOptions : List String → List Char × List String
  | "--" :: rest => ([], rest)
  | arg :: rest =>
    match arg.toList with
    | '-' :: c :: cs =>
      let (letters, rest) := splitOptions rest
      (c :: cs ++ letters, rest)
    | _ => ([], arg :: rest)
  | [] => ([], [])

def source (t : FileTree) (input : List UInt8) (name : String) : Except FileError (List UInt8) :=
  if name = "-" || name = "/dev/stdin" then .ok input
  else if name = "/dev/null" then .ok []
  else t.read ⟨name⟩

def leftOver (input : List UInt8) (names : List String) : List UInt8 :=
  if names = [] || names.contains "-" || names.contains "/dev/stdin" then [] else input

def quoted (s : String) : String := "'" ++ s ++ "'"

def forEach (doing : String) (act : FileTree → Path → FileResult (List UInt8)) (t : FileTree) : List String → Effect
  | [] => { files := t }
  | arg :: rest =>
    match act t ⟨arg⟩ with
    | (.ok bytes, t) =>
      let e := forEach doing act t rest
      { e with out := bytes ++ e.out }
    | (.error cause, t) =>
      let e := forEach doing act t rest
      let named := if doing = "" then arg else doing ++ " " ++ quoted arg
      { e with status := 1, faults := (named ++ ": " ++ cause.reason) :: e.faults }

def missingOperand (u : Utility) (t : FileTree) : Effect :=
  { status := 1, files := t, faults := ["missing operand\nTry '" ++ u.name ++ " --help' for more information."] }

end NativeBuild.Script
