import NativeBuild.Ordered.Map
import NativeBuild.Target

namespace NativeBuild

inductive Optimization where
  | none
  | size
  | speed
  | blended
  deriving DecidableEq, Repr, Inhabited

def Optimization.name : Optimization → String
  | none => "none"
  | size => "size"
  | speed => "speed"
  | blended => "blended"

inductive LinkType where
  | executable
  | windowedExecutable
  | sharedLibrary
  deriving DecidableEq, Repr, Inhabited

namespace LinkType

def all : List LinkType := [executable, windowedExecutable, sharedLibrary]

def name : LinkType → String
  | executable => "exe"
  | windowedExecutable => "winexe"
  | sharedLibrary => "shared"

def isExecutable (t : LinkType) : Bool := t != sharedLibrary

def ofName? (s : String) : Option LinkType := all.find? (fun t => t.name == Text.lowerAscii s)

def unknownMessage (s : String) : String :=
  s!"invalid build target '{s}', valid values: exe, winexe, shared"

end LinkType

inductive StandardLibrary where
  | dotnet
  | none
  | zero
  deriving DecidableEq, Repr, Inhabited

namespace StandardLibrary

def all : List StandardLibrary := [dotnet, none, zero]

def name : StandardLibrary → String
  | dotnet => "dotnet"
  | none => "none"
  | zero => "zero"

def ofName? (s : String) : Option StandardLibrary := all.find? (fun l => l.name == Text.lowerAscii s)

def unknownMessage (s : String) : String := s!"invalid stdlib '{s}', valid values: dotnet, none, zero"

end StandardLibrary

structure Flags where
  optimizeSize : Bool := false
  optimizeSpeed : Bool := false
  noOptimization : Bool := false
  linkType : LinkType := .executable
  stdlib : StandardLibrary := .dotnet
  noReflection : Bool := false
  noStackTraceData : Bool := false
  noGlobalization : Bool := false
  noExceptionMessages : Bool := false
  noDebugInfo : Bool := false
  noPie : Bool := false
  noPthread : Bool := false
  deterministic : Bool := false
  separateSymbols : Bool := false
  noLink : Bool := false
  keepObject : Bool := false
  features : List String := []
  directImports : List String := []
  deriving DecidableEq, Repr, Inhabited

abbrev FeatureTable := OrderedMap String Bool

structure Policy where
  optimization : Optimization
  linkType : LinkType
  stdlib : StandardLibrary
  reflection : Bool
  stackTraceData : Bool
  globalization : Bool
  exceptionMessages : Bool
  debugInfo : Bool
  positionIndependent : Bool
  deterministic : Bool
  pthread : Bool
  separateSymbols : Bool
  noLink : Bool
  keepObject : Bool
  featureSwitches : FeatureTable
  directImports : List String
  directImportLists : List String
  deriving DecidableEq, Repr

namespace Policy

def defaultSwitches : List (String × Bool) := [
  ("System.Diagnostics.Debugger.IsSupported", false),
  ("System.Diagnostics.Tracing.EventSource.IsSupported", false),
  ("System.Runtime.Serialization.EnableUnsafeBinaryFormatterSerialization", false),
  ("System.Resources.ResourceManager.AllowCustomResourceTypes", false),
  ("System.Text.Encoding.EnableUnsafeUTF7Encoding", false),
  ("System.Linq.Expressions.CanEmitObjectArrayDelegate", false),
  ("System.ComponentModel.DefaultValueAttribute.IsSupported", false),
  ("System.ComponentModel.Design.IDesignerHost.IsSupported", false),
  ("System.ComponentModel.TypeConverter.EnableUnsafeBinaryFormatterInDesigntimeLicenseContextSerialization",
    false),
  ("System.ComponentModel.TypeDescriptor.IsComObjectDescriptorSupported", false),
  ("System.Data.DataSet.XmlSerializationIsSupported", false),
  ("System.Linq.Enumerable.IsSizeOptimized", true),
  ("System.Net.SocketsHttpHandler.Http3Support", false),
  ("System.Reflection.Metadata.MetadataUpdater.IsSupported", false),
  ("System.Runtime.CompilerServices.RuntimeFeature.IsDynamicCodeSupported", false),
  ("System.Runtime.InteropServices.BuiltInComInterop.IsSupported", false),
  ("System.Runtime.InteropServices.EnableConsumingManagedCodeFromNativeHosting", false),
  ("System.Runtime.InteropServices.EnableCppCLIHostActivation", false),
  ("System.Runtime.InteropServices.Marshalling.EnableGeneratedComInterfaceComImportInterop", false),
  ("System.StartupHookProvider.IsSupported", false),
  ("System.Text.Json.JsonSerializer.IsReflectionEnabledByDefault", false),
  ("System.Threading.Thread.EnableAutoreleasePool", false),
  ("System.Threading.ThreadPool.UseWindowsThreadPool", true),
  ("System.Globalization.PredefinedCulturesOnly", true)]

/-- A switch `name=value` is cut at its first `=`, which neither begins nor ends the text. Only the
value `false` switches off. -/
def parseSwitch (entry : String) : Option (String × Bool) :=
  match Text.cutFirst '=' entry.toList with
  | some (name, value) =>
    if name = [] || value = [] then none
    else some (String.ofList name, String.ofList value != "false")
  | none => none

def impliedSwitches (flags : Flags) (globalization stackTraceData : Bool) : List (String × Bool) :=
  (if flags.noExceptionMessages || flags.noReflection then [("System.Resources.UseSystemResourceKeys", true)]
    else []) ++
  (if globalization then [] else [("System.Globalization.Invariant", true)]) ++
  (if stackTraceData then [] else [("System.Diagnostics.StackTrace.IsSupported", false)])

def featureTable (flags : Flags) (globalization stackTraceData : Bool) : FeatureTable :=
  OrderedMap.ofList
    (defaultSwitches ++ impliedSwitches flags globalization stackTraceData ++ flags.features.filterMap parseSwitch)

def defaultDirectImports : Os → List String
  | .windows => [
    "System.IO.Compression.Native",
    "System.Globalization.Native",
    "sokol",
    "shell32!CommandLineToArgvW"]
  | .linux => [
    "libSystem.Native",
    "libSystem.Globalization.Native",
    "libSystem.IO.Compression.Native",
    "libSystem.Net.Security.Native",
    "libSystem.Security.Cryptography.Native.OpenSsl",
    "libsokol"]
  | .uefi => []

def defaultDirectImportLists : Os → List String
  | .windows => ["WindowsAPIs.txt"]
  | _ => []

def selectOptimization (flags : Flags) : Optimization :=
  if flags.optimizeSize then .size
  else if flags.optimizeSpeed then .speed
  else if flags.noOptimization then .none
  else .blended

def resolve (flags : Flags) (target : Profile) : Policy :=
  let globalization := !flags.noGlobalization && !target.libc.lacksLocale
  let stackTraceData := !flags.noStackTraceData && flags.stdlib == .dotnet
  { optimization := selectOptimization flags
    linkType := flags.linkType
    stdlib := flags.stdlib
    reflection := !flags.noReflection && flags.stdlib == .dotnet
    stackTraceData
    globalization
    exceptionMessages := !flags.noExceptionMessages
    debugInfo := !flags.noDebugInfo
    positionIndependent := flags.linkType == .sharedLibrary || !flags.noPie || target.arch == .arm64
    deterministic := flags.deterministic
    pthread := !flags.noPthread
    separateSymbols := flags.separateSymbols
    noLink := flags.noLink
    keepObject := flags.keepObject
    featureSwitches := featureTable flags globalization stackTraceData
    directImports := flags.directImports ++ defaultDirectImports target.os
    directImportLists := defaultDirectImportLists target.os }

def scans (p : Policy) : Bool := p.optimization != .none

def foldsBodies (p : Policy) : Bool := p.optimization != .none

def isShared (p : Policy) : Bool := p.linkType == .sharedLibrary

end Policy

end NativeBuild
