import NativeBuild.Link.Request

namespace NativeBuild

structure WrapGroup where
  name : String
  objects : List String
  symbols : List String
  deviceSymbols : List String
  deriving DecidableEq, Repr

namespace WrapGroup

def symbolsFor (g : WrapGroup) (libc : Libc) : List String :=
  g.symbols ++ (if libc = .zisk then g.deviceSymbols else [])

def all : List WrapGroup := [
  { name := "rhp"
    objects := ["rhp.o"]
    symbols := [
      "RhpNewFast",
      "RhpNewObject",
      "RhpNewPtrArrayFast",
      "RhpNewArrayFast",
      "RhNewString",
      "S_P_CoreLib_System_Runtime_TypeCast__CheckCastAny",
      "S_P_CoreLib_System_Diagnostics_Tracing_EventPipeEventProvider__Register",
      "S_P_CoreLib_System_Diagnostics_Tracing_EventSource__InitializeDefaultEventSources",
      "GlobalizationNative_GetDefaultLocaleName",
      "S_P_CoreLib_System_Threading_ProcessorIdCache__ProcessorNumberSpeedCheck",
      "RhGetThreadStaticStorage",
      "S_P_CoreLib_Internal_Runtime_ThreadStatics__GetUninlinedThreadStaticBaseForType",
      "_Z16InitializeCGroupv",
      "S_P_CoreLib_Internal_Runtime_CompilerHelpers_StartupCodeHelpers__InitializeCommandLineArgs",
      "__GetNonGCStaticBase_S_P_CoreLib_System_Environment",
      "S_P_CoreLib_System_Threading_Thread__WaitForForegroundThreads",
      "S_P_CoreLib_System_Threading_Lock__Enter",
      "S_P_CoreLib_System_Threading_Lock__EnterAndGetCurrentThreadId",
      "S_P_CoreLib_System_Threading_Lock__TryEnterSlow_0",
      "S_P_CoreLib_System_Threading_Lock__Exit_0",
      "S_P_CoreLib_System_Threading_Lock__Exit_1",
      "S_P_CoreLib_System_Threading_Lock__ExitAll",
      "_ZN6Thread10IsDetachedEv"]
    deviceSymbols := [
      "System_Console_Interop_Sys__InitializeTerminalAndSignalHandling",
      "SystemNative_SetTerminalInvalidationHandler",
      "SystemNative_Write"] },
  { name := "rhp_native"
    objects := ["rhp_native.o"]
    symbols := ["RhpAssignRefRiscV64", "RhpCidResolve"]
    deviceSymbols := [] },
  { name := "pal"
    objects := ["pal.o"]
    symbols := [
      "getenv",
      "getcwd",
      "getpid",
      "getegid",
      "geteuid",
      "sched_getaffinity",
      "open",
      "__libc_malloc_impl",
      "__libc_realloc",
      "__libc_free",
      "pthread_create",
      "pthread_sigmask",
      "__clock_gettime",
      "clock_gettime",
      "__malloc_allzerop",
      "mmap",
      "munmap",
      "mlock",
      "munlock",
      "mlockall",
      "munlockall",
      "sched_yield",
      "sigaction",
      "signal",
      "syscall",
      "sysconf"]
    deviceSymbols := ["__stdio_write"] },
  { name := "tls"
    objects := ["tls.o"]
    symbols := ["__tls_get_addr", "__init_tls", "__init_tp", "__copy_tls"]
    deviceSymbols := [] },
  { name := "rng"
    objects := ["rng_stupid.o"]
    symbols := ["minipal_get_cryptographically_secure_random_bytes"]
    deviceSymbols := [] },
  { name := "ugc"
    objects := [
      "uGC.cpp.obj",
      "uGCHandleManager.cpp.obj",
      "uGCHandleStore.cpp.obj",
      "uGCHeap.cpp.obj"]
    symbols := ["GC_Initialize", "GC_VersionInfo"]
    deviceSymbols := [] }]

def tokens (g : WrapGroup) (r : LinkRequest) : List String :=
  (g.symbolsFor r.profile.libc).map ("--wrap=" ++ ·) ++ g.objects.map r.vendor

end WrapGroup

namespace LinkRequest

def memoryScript (r : LinkRequest) : Path :=
  (if r.profile.libc = .zisk then r.vendorDir else r.vendorSimDir).child "script.ld"

def zkvmBlock (r : LinkRequest) : List String :=
  ["-T" ++ r.memoryScript.text, r.vendor "entrypoint.o", r.vendor "nofp.o"] ++
  ["--whole-archive", r.vendor "ubootstrap.o", r.vendor "stdcppshim.o"] ++
  WrapGroup.all.flatMap (·.tokens r) ++
  ["--no-whole-archive"]

end LinkRequest

end NativeBuild
