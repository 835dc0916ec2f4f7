import NativeBuild.Build.Preparation
import NativeBuild.CommandLine.Invocation
import NativeBuild.Settings.Basic

namespace NativeBuild

namespace Given

def paths (g : Given) (name : OptionName) : List Path := (g.values name).map Path.mk

def path? (g : Given) (name : OptionName) : Option Path := (g.value? name).map Path.mk

def linkType? (g : Given) : Option LinkType := (g.value? .linkType).bind LinkType.ofName?

def target (g : Given) (s : Settings) : TargetRequest where
  os := (g.value? .os).or s.build.os
  arch := (g.value? .arch).or s.build.arch
  isa := g.value? .isa
  libc := (g.value? .libc).or s.build.libc

def stdlib (g : Given) (s : Settings) : Except String (StandardLibrary × Option String) :=
  match g.value? .stdlib, s.build.stdlib with
  | some name, _ =>
    match StandardLibrary.ofName? name with
    | some l => .ok (l, none)
    | none => .error (StandardLibrary.unknownMessage name)
  | none, some name =>
    match StandardLibrary.ofName? name with
    | some l => .ok (l, none)
    | none => .ok (default, some ("ignoring config value: " ++ StandardLibrary.unknownMessage name))
  | none, none => .ok (default, none)

def level (g : Given) (letter : String) : Bool := g.value? .level == some letter

def flags (g : Given) (s : Settings) (stdlib : StandardLibrary) : Flags where
  optimizeSize := g.isSet .optimizeSpace || g.level "s"
  optimizeSpeed := g.isSet .optimizeTime || g.level "t"
  noOptimization := g.isSet .noOptimization || g.level "0"
  stdlib
  noReflection := g.isSet .noReflection
  noStackTraceData := g.isSet .noStackTraceData
  noGlobalization := g.isSet .noGlobalization
  noExceptionMessages := g.isSet .noExceptionMessages
  noDebugInfo := g.isSet .noDebugInfo
  noPie := g.isSet .noPie
  noPthread := g.isSet .noPthread
  deterministic := g.isSet .deterministic || s.build.deterministic
  separateSymbols := g.isSet .separateSymbols
  noLink := g.isSet .noLink
  keepObject := g.isSet .keepObject
  features := g.values .feature
  directImports := g.values .directImport

def buildOptions (g : Given) (s : Settings) (stdlib : StandardLibrary) : BuildOptions where
  inputs := g.paths .inputs
  output := g.path? .output
  linkType := g.linkType?
  target := g.target s
  flags := g.flags s stdlib
  references := g.paths .reference
  defines := g.values .define
  langVersion := g.value? .langVersion
  map := g.path? .map
  analyseSize := g.isSet .sizeAnalysis
  ldflags := (g.values .ldflags).flatMap (fun v => (Text.words v.toList).map String.ofList)
  extraInputs := g.values .extraInput
  printCommands := g.isSet .printCommands || s.build.printCommands

def ilOptions (g : Given) (s : Settings) (stdlib : StandardLibrary) : IlOptions where
  inputs := g.paths .inputs
  output := g.path? .output
  linkType := g.linkType?
  target := g.target s
  references := g.paths .reference
  defines := g.values .define
  stdlib
  langVersion := g.value? .langVersion
  deterministic := g.isSet .deterministic || s.build.deterministic
  noDebugInfo := g.isSet .noDebugInfo
  optimize := g.isSet .optimize

end Given

end NativeBuild
