import NativeBuild.Path.Basic
import NativeBuild.Policy

namespace NativeBuild

namespace Layout

def libraryDirs (home : Path) (profile : Profile) : List Path :=
  let lib := home.child "lib"
  let os := lib.child profile.os.name
  let arch := os.child profile.arch.name
  (if profile.os = .linux then [arch.child profile.libc.directory] else []) ++ [arch, os, lib]

def outputStem (inputs : List Path) (cwd : Path) : Path :=
  let name :=
    match inputs with
    | first :: _ => first.fileStem?
    | [] => cwd.fileName?
  cwd.child (name.getD "out")

def defaultOutput (stem : Path) : Os → LinkType → Path
  | .windows, .sharedLibrary => stem.addExtension "dll"
  | .windows, _ => stem.addExtension "exe"
  | .uefi, _ => stem.addExtension "efi"
  | .linux, .sharedLibrary => stem.withFileName ("lib" ++ stem.fileName?.getD "" ++ ".so")
  | .linux, _ => stem

def defaultIl (stem : Path) (linkType : LinkType) : Path :=
  stem.addExtension (if linkType.isExecutable then "exe" else "dll")

def startupDir (libc : Libc) (primary vendor : Path) : Path :=
  if libc.isZkvm then vendor else primary

end Layout

structure SizeAnalysis where
  sizes : Path
  scanGraph : Path
  codegenGraph : Path
  deriving DecidableEq, Repr

namespace SizeAnalysis

def ofOutput (output : Path) : SizeAnalysis where
  sizes := output.withExtension "mstat"
  scanGraph := output.withExtension "scan.dgml.xml"
  codegenGraph := output.withExtension "codegen.dgml.xml"

end SizeAnalysis

structure BuildPaths where
  output : Path
  object : Path
  exports : Option Path
  patched : Path
  debugSymbols : Path
  map : Option Path
  sizeAnalysis : Option SizeAnalysis
  deriving DecidableEq, Repr

namespace BuildPaths

def exportsExtension (os : Os) : String := if os = .windows then "def" else "txt"

def ofOutput (output : Path) (profile : Profile) (linkType : LinkType) (map : Option Path)
    (analyse : Bool) : BuildPaths where
  output
  object := output.withExtension profile.os.objectExtension
  exports :=
    if linkType = .sharedLibrary then some (output.withExtension (exportsExtension profile.os)) else none
  patched := output.withExtension "patched"
  debugSymbols := output.addExtension "dwo"
  map
  sizeAnalysis := if analyse then some (SizeAnalysis.ofOutput output) else none

end BuildPaths

end NativeBuild
