import NativeBuild.Script.Utility.File
import NativeBuild.Script.Utility.Print
import NativeBuild.Script.Utility.Test

namespace NativeBuild.Script

def hereText (t : FileTree) : String := "/" ++ String.intercalate "/" t.workingDirectory

/-- What a small program does. The two that start others are none of them. -/
def Utility.perform (u : Utility) (t : FileTree) (input : List UInt8) (args : List String) : Effect :=
  match u with
  | .shell | .environment => { status := 127, files := t, rest := input }
  | .yes | .sleep => { files := t, rest := input }
  | .no => { status := 1, files := t, rest := input }
  | .echo => { files := t, out := echoed args, rest := input }
  | .printf => { printFormatted t args with rest := input }
  | .test => { Test.perform t args with rest := input }
  | .bracket => { Test.performBracketed t args with rest := input }
  | .workingDirectory => { files := t, out := bytesOf (hereText t ++ "\n"), rest := input }
  | .cat => concatenate t input args
  | .edit => editStream t input args
  | .touch | .remove | .makeDirectory | .copy | .move | .baseName | .directoryName =>
    { performOnNames u t args with rest := input }

end NativeBuild.Script
