import NativeBuild.Files.Access

/-!
Changing files. An operation that fails can have changed the tree before it failed, so each gives
back the tree in either case.
-/

namespace NativeBuild

abbrev FileResult (α : Type) := Except FileError α × FileTree

namespace FileTree

def write (t : FileTree) (p : Path) (bytes : List UInt8) : FileResult Unit :=
  match t.locate p with
  | .error e => (.error e, t)
  | .ok place =>
    if p.endsInSeparator then (.error .isADirectory, t)
    else
      match t.node? place with
      | some .directory => (.error .isADirectory, t)
      | some (.file _ executable) => (.ok (), t.set place (.file bytes executable))
      | none => (.ok (), t.set place (.file bytes false))

def makeDirectory (t : FileTree) (p : Path) : FileResult Unit :=
  match t.locate p with
  | .error e => (.error e, t)
  | .ok place =>
    match t.node? place with
    | some _ => (.error .alreadyExists, t)
    | none => (.ok (), t.set place .directory)

def makeDirectories (t : FileTree) : List Path → FileResult Unit
  | [] => (.ok (), t)
  | p :: parents =>
    if p.text = "" then (.ok (), t)
    else
      match t.makeDirectory p with
      | (.ok (), t) => (.ok (), t)
      | (.error .notFound, t) =>
        match t.makeDirectories parents with
        | (.error e, t) => (.error e, t)
        | (.ok (), t) =>
          match t.makeDirectory p with
          | (.ok (), t) => (.ok (), t)
          | (.error e, t) => if t.isDirectory p then (.ok (), t) else (.error e, t)
      | (.error e, t) => if t.isDirectory p then (.ok (), t) else (.error e, t)

def ancestry (p : Path) : List Path :=
  go (p.components.length + 1) p
where
  go : Nat → Path → List Path
    | 0, _ => []
    | n + 1, p =>
      match p.parent? with
      | some parent => p :: go n parent
      | none => [p]

def ensureDirectory (t : FileTree) (p : Path) : FileResult Unit :=
  if t.exists? p then (.ok (), t) else t.makeDirectories (ancestry p)

def removeQuietly (t : FileTree) (p : Path) : FileTree :=
  match t.lookup p, t.locate p with
  | .ok (.file ..), .ok place => t.remove place
  | _, _ => t

def during {α : Type} (doing : String) (r : FileResult α) : Except FileFailure α × FileTree :=
  match r with
  | (.ok a, t) => (.ok a, t)
  | (.error cause, t) => (.error ⟨doing, cause⟩, t)

def makeRoom (t : FileTree) (p : Path) : Except FileFailure Unit × FileTree :=
  during ("failed to create directory: " ++ p.text) (t.ensureDirectory p)

def writeText (t : FileTree) (p : Path) (text : String) : Except FileFailure Unit × FileTree :=
  let room : Except FileFailure Unit × FileTree :=
    match p.parent? with
    | some parent => if parent.text = "" then (.ok (), t) else t.makeRoom parent
    | none => (.ok (), t)
  match room with
  | (.error e, t) => (.error e, t)
  | (.ok (), t) => during ("failed to write file: " ++ p.text) (t.write p (Text.encodeUtf8 text.toList))

end FileTree

end NativeBuild
