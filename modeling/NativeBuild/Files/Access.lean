import NativeBuild.Files.Error
import NativeBuild.Files.Tree
import NativeBuild.Path.Basic
import NativeBuild.Text.Utf8

namespace NativeBuild

def Path.steps (p : Path) : List String :=
  ((Text.pieces '/' p.chars).filter (· ≠ [])).map String.ofList

def Path.endsInSeparator (p : Path) : Bool := p.chars.getLast? == some '/'

namespace FileTree

def nameLimit : Nat := 255

def pathLimit : Nat := 4096

def requireDirectory (t : FileTree) (place : Place) : Except FileError Unit :=
  match t.node? place with
  | some .directory => .ok ()
  | some (.file ..) => .error .notADirectory
  | none => .error .notFound

def step (place : Place) (name : String) : Place :=
  if name = "." then place else if name = ".." then place.dropLast else place ++ [name]

def follow (t : FileTree) (place : Place) : List String → Except FileError Place
  | [] => .ok place
  | s :: rest => do
    t.requireDirectory place
    if nameLimit < s.utf8ByteSize then .error .nameTooLong else t.follow (step place s) rest

def locate (t : FileTree) (p : Path) : Except FileError Place :=
  if '\x00' ∈ p.chars then .error .zeroInName
  else if p.text = "" then .error .notFound
  else if pathLimit ≤ p.text.utf8ByteSize then .error .nameTooLong
  else t.follow (if p.isAbsolute then [] else t.workingDirectory) p.steps

def lookup (t : FileTree) (p : Path) : Except FileError Node := do
  match t.node? (← t.locate p) with
  | none => .error .notFound
  | some (.file bytes executable) =>
    if p.endsInSeparator then .error .notADirectory else .ok (.file bytes executable)
  | some .directory => .ok .directory

def exists? (t : FileTree) (p : Path) : Bool := (t.lookup p).isOk

def isDirectory (t : FileTree) (p : Path) : Bool :=
  match t.lookup p with
  | .ok .directory => true
  | _ => false

def isFile (t : FileTree) (p : Path) : Bool :=
  match t.lookup p with
  | .ok (.file ..) => true
  | _ => false

def isExecutable (t : FileTree) (p : Path) : Bool :=
  match t.lookup p with
  | .ok (.file _ executable) => executable
  | _ => false

def read (t : FileTree) (p : Path) : Except FileError (List UInt8) := do
  match ← t.lookup p with
  | .file bytes _ => .ok bytes
  | .directory => .error .isADirectory

def readText (t : FileTree) (p : Path) : Except FileError String := do
  match Text.decodeUtf8? (← t.read p) with
  | some cs => .ok (String.ofList cs)
  | none => .error .notText

theorem readText_eq_ok {t : FileTree} {p : Path} {text : String} (h : (t.readText p).toOption = some text) :
    t.readText p = .ok text := by
  cases hread : t.readText p with
  | error e =>
    rw [hread] at h
    cases h
  | ok found =>
    rw [hread] at h
    rw [Option.some.inj h]

def children (t : FileTree) (p : Path) : List Path :=
  match t.locate p with
  | .ok place => if t.isDirectory p then (t.namesIn place).map p.child else []
  | .error _ => []

/-- Paths of the regular files below a directory at any depth, where each directory lists its names in some order. What
a name stands for is told by the listing, so a file is found whether or not its path is short enough to lead to it. -/
def filesBelow (t : FileTree) (listing : Place → List String) : Nat → Path → List Path
  | 0, _ => []
  | n + 1, p =>
    match t.locate p with
    | .error _ => []
    | .ok place =>
      if t.isDirectory p then
        (listing place).flatMap (fun name =>
          match t.node? (place ++ [name]) with
          | some (.file ..) => [p.child name]
          | _ => t.filesBelow listing n (p.child name))
      else []

def walkIn (t : FileTree) (listing : Place → List String) (p : Path) (ext : String) (skip : String → Bool) : List Path :=
  let files := if t.isFile p then [p] else t.filesBelow listing t.size p
  Path.sort (files.filter (fun q => q.extension? == some ext && !skip (q.fileName?.getD q.text)))

def walk (t : FileTree) (p : Path) (ext : String) (skip : String → Bool) : List Path :=
  t.walkIn t.namesIn p ext skip

end FileTree

end NativeBuild
