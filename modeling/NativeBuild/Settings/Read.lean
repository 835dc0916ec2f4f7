import NativeBuild.Files.Access
import NativeBuild.Settings.Basic
import NativeBuild.Toml.Reader

namespace NativeBuild.Settings

def section? (names : List String) : TomlValue → Option (List (Option TomlValue))
  | .table es => some (names.map (fun n => (es.find? (fun e => e.1 = n)).map (·.2)))
  | .array vs => some (names.zipIdx.map (fun e => vs[e.2]?))
  | .date => some (names.map (fun _ => none))
  | _ => none

def text? : TomlValue → Option String
  | .string s => some s
  | _ => none

def path? (v : TomlValue) : Option Path := (text? v).map Path.mk

def flag? : TomlValue → Option Bool
  | .boolean b => some b
  | _ => none

def paths? : TomlValue → Option (List Path)
  | .array vs => vs.mapM path?
  | _ => none

def optional {α : Type} (item? : TomlValue → Option α) : Option TomlValue → Option (Option α)
  | none => some none
  | some v => (item? v).map some

def orDefault {α : Type} [Inhabited α] (item? : TomlValue → Option α) : Option TomlValue → Option α
  | none => some default
  | some v => item? v

def buildKeys : List String := ["os", "arch", "libc", "stdlib", "deterministic", "print_commands"]

def readBuild (v : TomlValue) : Option BuildDefaults := do
  match ← section? buildKeys v with
  | [os, arch, libc, stdlib, deterministic, printCommands] =>
    return {
      os := ← optional text? os
      arch := ← optional text? arch
      libc := ← optional text? libc
      stdlib := ← optional text? stdlib
      deterministic := ← orDefault flag? deterministic
      printCommands := ← orDefault flag? printCommands }
  | _ => none

def toolKeys : List String := ["home", "lib", "ld", "objcopy", "frontend", "codegen"]

def readTools (v : TomlValue) : Option ToolOverrides := do
  match ← section? toolKeys v with
  | [home, lib, ld, objcopy, frontEnd, codegen] =>
    return {
      home := ← optional path? home
      lib := ← orDefault paths? lib
      ld := ← optional path? ld
      objcopy := ← optional path? objcopy
      frontEnd := ← optional path? frontEnd
      codegen := ← optional path? codegen }
  | _ => none

def read (text : String) : Option Settings := do
  match ← section? ["build", "tools"] (.table (← Toml.read text)) with
  | [build, tools] => return ⟨← orDefault readBuild build, ← orDefault readTools tools⟩
  | _ => none

inductive LoadError where
  | unreadable (file : Path)
  | malformed (file : Path)
  deriving DecidableEq, Repr

def LoadError.message : LoadError → String
  | unreadable file => "failed to read config: " ++ file.text
  | malformed file => "failed to parse config: " ++ file.text

def load (t : FileTree) (file : Path) : Except LoadError Settings :=
  match t.readText file with
  | .error _ => .error (.unreadable file)
  | .ok text =>
    match read text with
    | some s => .ok s
    | none => .error (.malformed file)

def loadOrDefault (t : FileTree) (file : Path) : Settings := (load t file).toOption.getD {}

def projectFile (cwd : Path) : Path := (cwd.child ".aotbuild").child "config.toml"

def userFile (configDirectory : Path) : Path := (configDirectory.child "aotbuild").child "config.toml"

def loadAll (t : FileTree) (configDirectory : Option Path) (cwd : Path) : Settings :=
  ((configDirectory.map (fun d => loadOrDefault t (userFile d))).getD {}).merge
    (loadOrDefault t (projectFile cwd))

end NativeBuild.Settings
