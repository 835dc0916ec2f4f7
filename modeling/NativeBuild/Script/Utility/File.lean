import NativeBuild.Script.Utility.Basic
import NativeBuild.Text.Replace

namespace NativeBuild.Script

def concatenate (t : FileTree) (input : List UInt8) (args : List String) : Effect :=
  let names := (splitOptions args).2
  let names := if names = [] then ["-"] else names
  { forEach "" (fun t p => (source t input p.text, t)) t names with rest := leftOver input names }

def touchOne (t : FileTree) (p : Path) : FileResult (List UInt8) :=
  if t.exists? p then (.ok [], t) else (t.write p []).map (·.map (fun _ => [])) id

def removeOne (all quiet : Bool) (t : FileTree) (p : Path) : FileResult (List UInt8) :=
  match t.lookup p, t.locate p with
  | .ok (.file ..), .ok place => (.ok [], t.remove place)
  | .ok .directory, .ok place => if all then (.ok [], t.removeAll place) else (.error .isADirectory, t)
  | .error e, _ => (if quiet && e = .notFound then .ok [] else .error e, t)
  | _, .error e => (.error e, t)

def makeOne (withParents : Bool) (t : FileTree) (p : Path) : FileResult (List UInt8) :=
  let made := if withParents then t.makeDirectories (FileTree.ancestry p) else t.makeDirectory p
  made.map (·.map (fun _ => [])) id

def copyOne (isMove : Bool) (target : Path) (t : FileTree) (source : Path) : FileResult (List UInt8) :=
  let target := if t.isDirectory target then target.join ⟨source.fileName?.getD ""⟩ else target
  match t.lookup source, t.locate source with
  | .ok (.file bytes executable), .ok origin =>
    match t.write target bytes, t.locate target with
    | (.ok (), u), .ok place =>
      let u := if t.exists? target then u else u.set place (.file bytes executable)
      (.ok [], if isMove && place ≠ origin then u.remove origin else u)
    | (.error e, u), _ | (_, u), .error e => (.error e, u)
  | .ok .directory, _ => (.error .isADirectory, t)
  | .error e, _ | _, .error e => (.error e, t)

def dropEndSeparators (cs : List Char) : List Char :=
  match (cs.reverse.dropWhile (· == '/')).reverse with
  | [] => cs.take 1
  | rest => rest

def baseOf (name suffix : String) : String :=
  let base := ((dropEndSeparators name.toList).reverse.takeWhile (· != '/')).reverse
  let stem := base.take (base.length - suffix.length)
  String.ofList (if stem ≠ [] && stem ++ suffix.toList = base then stem else base)

def directoryOf (name : String) : String :=
  match ((dropEndSeparators name.toList).reverse.dropWhile (· != '/')).reverse with
  | [] => "."
  | front => String.ofList (dropEndSeparators front)

def performOnNames (u : Utility) (t : FileTree) (args : List String) : Effect :=
  let (letters, names) := splitOptions args
  let has (c : Char) := letters.contains c
  match u, names with
  | .remove, [] => if has 'f' then { files := t } else missingOperand u t
  | _, [] => missingOperand u t
  | .touch, names => forEach "cannot touch" touchOne t names
  | .remove, names => forEach "cannot remove" (removeOne (has 'r' || has 'R') (has 'f')) t names
  | .makeDirectory, names => forEach "cannot create directory" (makeOne (has 'p')) t names
  | .baseName, name :: more => { files := t, out := bytesOf (baseOf name (more.headD "") ++ "\n") }
  | .directoryName, name :: _ => { files := t, out := bytesOf (directoryOf name ++ "\n") }
  | .copy, names => forEach "cannot copy" (copyOne false ⟨names.getLastD ""⟩) t names.dropLast
  | .move, names => forEach "cannot move" (copyOne true ⟨names.getLastD ""⟩) t names.dropLast
  | _, _ => { files := t }

def replaceFirst (mark new : List Char) : List Char → List Char
  | [] => []
  | c :: cs => if mark.isPrefixOf (c :: cs) then new ++ (c :: cs).drop mark.length else c :: replaceFirst mark new cs

/-- The editor of streams knows one command, which puts a text in the place of another on every line. -/
def editStream (t : FileTree) (input : List UInt8) (args : List String) : Effect :=
  let names := if args.length ≤ 1 then ["-"] else args.tail
  let isPlain (cs : List Char) := cs.all (fun c => !".*[]^$\\&".toList.contains c)
  match Text.pieces '/' (args.headD "").toList with
  | [['s'], mark, new, flags] =>
    if mark ≠ [] && isPlain mark && isPlain new && (flags = [] || flags = ['g']) then
      let line := if flags = [] then replaceFirst mark new else Text.replaceAll mark new
      let shown (bytes : List UInt8) : List UInt8 :=
        Text.encodeUtf8 (Text.joinPieces '\n' ((Text.pieces '\n' (Text.decodeLossy bytes)).map line))
      { forEach "" (fun t p => ((source t input p.text).map shown, t)) t names with rest := leftOver input names }
    else { status := 1, files := t, faults := ["-e expression #1: unknown option to 's'"] }
  | _ => { status := 1, files := t, faults := ["-e expression #1, char 1: unknown command"] }

end NativeBuild.Script
