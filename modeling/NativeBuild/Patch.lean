import NativeBuild.Files.Update

namespace NativeBuild.Patch

def flagOffset : Nat := 0x30

def isPatchable (b : UInt8) : Bool := b == 4 || b == 5

def patched? (bytes : List UInt8) : Option (List UInt8) :=
  match bytes[flagOffset]? with
  | some b => if isPatchable b then some (bytes.set flagOffset 0) else none
  | none => none

def apply (t : FileTree) (p : Path) : Except FileFailure Bool × FileTree :=
  let doing := "failed to open " ++ p.text ++ " for patching"
  match t.lookup p, t.locate p with
  | .error e, _ => (.error ⟨doing, e⟩, t)
  | .ok .directory, _ => (.error ⟨doing, .isADirectory⟩, t)
  | .ok (.file bytes executable), .ok place =>
    match patched? bytes with
    | some new => (.ok true, t.set place (.file new executable))
    | none => (.ok false, t)
  | .ok (.file ..), .error e => (.error ⟨doing, e⟩, t)

def applyAll (t : FileTree) : List Path → Except FileFailure Unit × FileTree
  | [] => (.ok (), t)
  | p :: ps =>
    match apply t p with
    | (.ok _, t) => applyAll t ps
    | (.error e, t) => (.error e, t)

end NativeBuild.Patch
