import NativeBuild.Text.Blank
import NativeBuild.Text.Split

namespace NativeBuild

inductive Os where
  | windows
  | linux
  | uefi
  deriving DecidableEq, Repr, Inhabited

namespace Os

def all : List Os := [windows, linux, uefi]

def name : Os → String
  | windows => "windows"
  | linux => "linux"
  | uefi => "uefi"

def symbol : Os → String
  | windows => "WINDOWS"
  | linux => "LINUX"
  | uefi => "UEFI"

def isPe (os : Os) : Bool := os == windows || os == uefi

def objectExtension (os : Os) : String := if os.isPe then "obj" else "o"

def ofName? (s : String) : Option Os := all.find? (fun os => os.name == Text.lowerAscii s)

end Os

inductive Arch where
  | x86
  | x64
  | arm64
  | riscv64
  deriving DecidableEq, Repr, Inhabited

namespace Arch

def all : List Arch := [x86, x64, arm64, riscv64]

def name : Arch → String
  | x86 => "x86"
  | x64 => "x64"
  | arm64 => "arm64"
  | riscv64 => "riscv64"

def symbol : Arch → String
  | x86 => "X86"
  | x64 => "X64"
  | arm64 => "ARM64"
  | riscv64 => "RISCV64"

def spellings : Arch → List String
  | x86 => ["x86", "i686", "i386"]
  | x64 => ["x64", "x86_64", "amd64"]
  | arm64 => ["arm64", "aarch64"]
  | riscv64 => ["riscv64"]

def needsAbiPatch (arch : Arch) : Bool := arch == riscv64

def ofName? (s : String) : Option Arch := all.find? (fun arch => arch.spellings.contains (Text.lowerAscii s))

end Arch

inductive Libc where
  | none
  | shcrt
  | glibc
  | bionic
  | musl
  | zisk
  | ziskSim
  deriving DecidableEq, Repr, Inhabited

namespace Libc

def all : List Libc := [none, shcrt, glibc, bionic, musl, zisk, ziskSim]

def name : Libc → String
  | none => "none"
  | shcrt => "shcrt"
  | glibc => "glibc"
  | bionic => "bionic"
  | musl => "musl"
  | zisk => "zisk"
  | ziskSim => "zisk_sim"

def spellings : Libc → List String
  | ziskSim => ["zisk_sim", "zisk-sim"]
  | libc => [libc.name]

def isZkvm (libc : Libc) : Bool := libc == zisk || libc == ziskSim

def isStatic (libc : Libc) : Bool := libc == musl || libc.isZkvm

def lacksLocale (libc : Libc) : Bool := libc == bionic || libc.isStatic

def directory (libc : Libc) : String := if libc.isZkvm then "musl" else libc.name

def validFor : Libc → Os → Bool
  | none, .windows => true
  | none, .uefi => true
  | none, .linux => false
  | shcrt, os => os == .windows
  | _, os => os == .linux

def ofName? (s : String) : Option Libc := all.find? (fun libc => libc.spellings.contains (Text.lowerAscii s))

def default : Os → Arch → Libc
  | .windows, .x86 => none
  | .windows, _ => shcrt
  | .linux, _ => glibc
  | .uefi, _ => none

end Libc

structure Profile where
  os : Os
  arch : Arch
  libc : Libc
  isa : List String
  deriving DecidableEq, Repr, Inhabited

namespace Profile

def display (p : Profile) : String := s!"{p.os.name}-{p.arch.name}-{p.libc.name}"

end Profile

structure TargetRequest where
  os : Option String := none
  arch : Option String := none
  isa : Option String := none
  libc : Option String := none
  deriving DecidableEq, Repr, Inhabited

structure Host where
  os : String := "linux"
  arch : String := "x86_64"
  deriving DecidableEq, Repr, Inhabited

inductive TargetError where
  | unknownOs (value : String)
  | unknownArch (value : String)
  | unknownLibc (value : String)
  | malformedIsa (value : String)
  | libcMismatch (libc : Libc) (os : Os) (arch : Arch)
  deriving DecidableEq, Repr

namespace TargetError

def message : TargetError → String
  | unknownOs v => s!"Target OS '{v}' is not supported"
  | unknownArch v => s!"Target architecture '{v}' is not supported"
  | unknownLibc v => s!"Target libc '{v}' is not supported"
  | malformedIsa v => s!"Target instruction set '{v}' is not supported"
  | libcMismatch libc os arch => s!"libc '{libc.name}' is not valid for target {os.name}/{arch.name}"

end TargetError

namespace TargetRequest

def settleOs (r : TargetRequest) (host : Host) : Except TargetError Os :=
  match r.os with
  | some s => (Os.ofName? s).elim (.error (.unknownOs s)) .ok
  | none =>
    if host.os = "windows" then .ok .windows
    else if host.os = "linux" then .ok .linux
    else .error (.unknownOs host.os)

def settleArch (r : TargetRequest) (host : Host) : Except TargetError Arch :=
  let s := r.arch.getD host.arch
  (Arch.ofName? s).elim (.error (.unknownArch s)) .ok

def fits (libc : Libc) (os : Os) (arch : Arch) : Bool :=
  libc.validFor os && (!libc.isZkvm || arch == .riscv64)

def settleLibc (r : TargetRequest) (os : Os) (arch : Arch) : Except TargetError Libc :=
  match r.libc with
  | some s =>
    match Libc.ofName? s with
    | some libc => if fits libc os arch then .ok libc else .error (.libcMismatch libc os arch)
    | none => .error (.unknownLibc s)
  | none => .ok (Libc.default os arch)

def isaTokens (s : String) : List String :=
  (Text.pieces ',' s.toList).map (fun t => Text.lowerAscii (String.ofList (Text.trim t)))

def firsts : List String → List String → List String
  | seen, [] => seen
  | seen, t :: ts => if t ∈ seen then firsts seen ts else firsts (seen ++ [t]) ts

def settleIsa (r : TargetRequest) : Except TargetError (List String) :=
  match r.isa with
  | some s => if "" ∈ isaTokens s then .error (.malformedIsa s) else .ok (firsts [] (isaTokens s))
  | none => .ok []

def resolve (r : TargetRequest) (host : Host) : Except TargetError Profile := do
  let os ← r.settleOs host
  let arch ← r.settleArch host
  let libc ← r.settleLibc os arch
  let isa ← r.settleIsa
  return { os, arch, libc, isa }

end TargetRequest

end NativeBuild
