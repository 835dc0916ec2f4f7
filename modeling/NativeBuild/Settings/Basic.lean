import NativeBuild.Path.Basic

namespace NativeBuild

structure BuildDefaults where
  os : Option String := none
  arch : Option String := none
  libc : Option String := none
  stdlib : Option String := none
  deterministic : Bool := false
  printCommands : Bool := false
  deriving DecidableEq, Repr, Inhabited

structure ToolOverrides where
  home : Option Path := none
  lib : List Path := []
  ld : Option Path := none
  objcopy : Option Path := none
  frontEnd : Option Path := none
  codegen : Option Path := none
  deriving DecidableEq, Repr, Inhabited

structure Settings where
  build : BuildDefaults := {}
  tools : ToolOverrides := {}
  deriving DecidableEq, Repr, Inhabited

def BuildDefaults.merge (a b : BuildDefaults) : BuildDefaults where
  os := b.os.or a.os
  arch := b.arch.or a.arch
  libc := b.libc.or a.libc
  stdlib := b.stdlib.or a.stdlib
  deterministic := a.deterministic || b.deterministic
  printCommands := a.printCommands || b.printCommands

def ToolOverrides.merge (a b : ToolOverrides) : ToolOverrides where
  home := b.home.or a.home
  lib := if b.lib = [] then a.lib else b.lib
  ld := b.ld.or a.ld
  objcopy := b.objcopy.or a.objcopy
  frontEnd := b.frontEnd.or a.frontEnd
  codegen := b.codegen.or a.codegen

def Settings.merge (a b : Settings) : Settings := ⟨a.build.merge b.build, a.tools.merge b.tools⟩

end NativeBuild
