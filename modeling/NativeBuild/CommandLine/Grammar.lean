import NativeBuild.CommandLine.Usage
import NativeBuild.Console.Basic
import NativeBuild.Policy

namespace NativeBuild

inductive OptionName where
  | help
  | version
  | verbose
  | quiet
  | color
  | inputs
  | output
  | linkType
  | os
  | arch
  | isa
  | libc
  | reference
  | define
  | stdlib
  | langVersion
  | deterministic
  | level
  | optimizeSpace
  | optimizeTime
  | noOptimization
  | noReflection
  | noStackTraceData
  | noGlobalization
  | noExceptionMessages
  | noPie
  | noDebugInfo
  | noPthread
  | separateSymbols
  | noLink
  | ldflags
  | extraInput
  | directImport
  | feature
  | map
  | sizeAnalysis
  | keepObject
  | printCommands
  | optimize
  | shell
  deriving DecidableEq, Repr

inductive ValueKind where
  | text
  | file
  | word (allowed : List String)
  | linkType
  | color
  deriving DecidableEq, Repr

def ValueKind.fault? (kind : ValueKind) (value : String) : Option UsageError :=
  match kind with
  | text => none
  | file => if value = "" then some .invalidValue else none
  | word allowed => if value ∈ allowed then none else some .invalidValue
  | linkType => if (LinkType.ofName? value).isSome then none else some .refusedValue
  | color => if (ColorChoice.ofName? value).isSome then none else some .refusedValue

inductive OptionShape where
  | switch
  | single (kind : ValueKind)
  | many (kind : ValueKind) (anything : Bool)
  | wish (e : UsageError)
  deriving DecidableEq, Repr

namespace OptionShape

def kind? : OptionShape → Option ValueKind
  | single kind => some kind
  | many kind _ => some kind
  | switch | wish _ => none

def mayRepeat : OptionShape → Bool
  | many .. => true
  | _ => false

def takesAnything : OptionShape → Bool
  | many _ anything => anything
  | _ => false

end OptionShape

structure OptionForm where
  name : OptionName
  long : Option String
  short : Option Char
  shape : OptionShape
  deriving DecidableEq, Repr

inductive Positional where
  | absent
  | many (name : OptionName) (kind : ValueKind)
  | required (name : OptionName) (kind : ValueKind)
  deriving DecidableEq, Repr

structure Grammar where
  options : List OptionForm
  positional : Positional := .absent
  subcommands : List String := []

namespace Grammar

def long? (g : Grammar) (spelling : String) : Option OptionForm :=
  g.options.find? (fun o => o.long == some spelling)

def short? (g : Grammar) (spelling : Char) : Option OptionForm :=
  g.options.find? (fun o => o.short == some spelling)

end Grammar

inductive Subcommand where
  | build
  | il
  | linkPlan
  | completions
  deriving DecidableEq, Repr, Inhabited

namespace Subcommand

def all : List Subcommand := [build, il, linkPlan, completions]

def name : Subcommand → String
  | build => "build"
  | il => "il"
  | linkPlan => "linkplan"
  | completions => "completions"

def ofName? (s : String) : Option Subcommand := all.find? (fun c => c.name = s)

end Subcommand

namespace Grammar

def helpWord : String := "help"

def everywhere : List OptionForm := [
  ⟨.help, "help", 'h', .wish .help⟩,
  ⟨.verbose, "verbose", 'v', .switch⟩,
  ⟨.quiet, "quiet", 'q', .switch⟩,
  ⟨.color, "color", none, .single .color⟩]

def target : List OptionForm := [
  ⟨.os, "os", none, .single .text⟩,
  ⟨.arch, "arch", none, .single .text⟩,
  ⟨.isa, "isa", 'm', .single .text⟩,
  ⟨.libc, "libc", none, .single .text⟩]

def frontEnd : List OptionForm := [
  ⟨.reference, "reference", 'r', .many .file false⟩,
  ⟨.define, "define", 'd', .many .text false⟩,
  ⟨.stdlib, "stdlib", none, .single .text⟩,
  ⟨.langVersion, "langversion", none, .single .text⟩,
  ⟨.deterministic, "deterministic", none, .switch⟩]

def compiling : List OptionForm :=
  everywhere ++ [
    ⟨.output, "out", 'o', .single .file⟩,
    ⟨.linkType, "target", none, .single .linkType⟩,
    ⟨.noDebugInfo, "no-debug-info", none, .switch⟩] ++ target ++ frontEnd

def levels : List String := ["s", "t", "0"]

def building : List OptionForm :=
  compiling ++ [
    ⟨.level, none, 'O', .single (.word levels)⟩,
    ⟨.optimizeSpace, "optimize-space", none, .switch⟩,
    ⟨.optimizeTime, "optimize-time", none, .switch⟩,
    ⟨.noOptimization, "no-optimization", none, .switch⟩,
    ⟨.noReflection, "no-reflection", none, .switch⟩,
    ⟨.noStackTraceData, "no-stacktrace-data", none, .switch⟩,
    ⟨.noGlobalization, "no-globalization", none, .switch⟩,
    ⟨.noExceptionMessages, "no-exception-messages", none, .switch⟩,
    ⟨.noPie, "no-pie", none, .switch⟩,
    ⟨.noPthread, "no-pthread", none, .switch⟩,
    ⟨.separateSymbols, "separate-symbols", none, .switch⟩,
    ⟨.noLink, "no-link", 'c', .switch⟩,
    ⟨.ldflags, "ldflags", none, .many .text true⟩,
    ⟨.extraInput, "extra-ld", none, .many .text true⟩,
    ⟨.directImport, none, 'i', .many .text false⟩,
    ⟨.feature, "feature", none, .many .text false⟩,
    ⟨.map, "map", none, .single .file⟩,
    ⟨.sizeAnalysis, "mstat", none, .switch⟩,
    ⟨.keepObject, "keep-object", none, .switch⟩,
    ⟨.printCommands, none, 'x', .switch⟩]

def shells : List String := ["bash", "elvish", "fish", "powershell", "zsh"]

def ofSubcommand : Subcommand → Grammar
  | .build | .linkPlan => { options := building, positional := .many .inputs .file }
  | .il => {
      options := compiling ++ [⟨.optimize, none, 'O', .switch⟩]
      positional := .many .inputs .file }
  | .completions => { options := everywhere, positional := .required .shell (.word shells) }

def program : Grammar where
  options := ⟨.version, "version", 'V', .wish .version⟩ :: everywhere
  subcommands := Subcommand.all.map Subcommand.name ++ [helpWord]

end Grammar

end NativeBuild
