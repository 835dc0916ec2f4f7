import NativeBuild.Files.Access
import NativeBuild.Settings.Basic

namespace NativeBuild

abbrev Environment := OrderedMap String String

structure Tools where
  home : Path
  libraryOverride : Option (List Path)
  ld : Path
  objcopy : Path
  patchElf : Path
  frontEnd : Path
  codegen : Path
  deriving DecidableEq, Repr

namespace Tools

def zkvmDir (tools : Tools) : Path :=
  (((tools.home.child "lib").child "linux").child "riscv64").child "zisk"

def zkvmSimDir (tools : Tools) : Path :=
  (((tools.home.child "lib").child "linux").child "riscv64").child "zisk_sim"

def referenceDir (tools : Tools) : Path := tools.home.child "ref"

def splitDirectories (text : String) : List Path := (Text.pieces ':' text.toList).map Path.ofChars

def expandHome (home d : Path) : Path :=
  match d.components with
  | .name "~" :: rest => home.extend rest
  | _ => d

def onSearchPath (t : FileTree) (directories : List Path) (name : String) : Option Path :=
  (directories.map (·.child name)).find? t.isExecutable

def bundled (home : Path) (name : String) : Path := (home.child "bin").child name

def available (t : FileTree) (directories : List Path) (home : Path) (name : String) : Path :=
  if t.exists? (bundled home name) then bundled home name
  else (onSearchPath t directories name).getD (bundled home name)

def choose (env : Environment) (key : String) (setting : Option Path) (default : Path) : Path :=
  (((env.get? key).map Path.mk).or setting).getD default

def resolve (t : FileTree) (directories : List Path) (env : Environment) (overrides : ToolOverrides)
    (defaultHome : Path) : Tools :=
  let home := choose env "AOTBUILD_HOME" overrides.home defaultHome
  { home
    libraryOverride :=
      match env.get? "AOTBUILD_LIB" with
      | some text => some (splitDirectories text)
      | none => if overrides.lib = [] then none else some overrides.lib
    ld := choose env "AOTBUILD_LD" overrides.ld (bundled home "lld")
    objcopy := choose env "AOTBUILD_OBJCOPY" overrides.objcopy (bundled home "llvm-objcopy")
    patchElf := home.child "patch_elf.py"
    frontEnd := choose env "AOTBUILD_FRONTEND" overrides.frontEnd (available t directories home "aot-frontend")
    codegen := choose env "AOTBUILD_CODEGEN" overrides.codegen (available t directories home "ilc") }

end Tools

end NativeBuild
