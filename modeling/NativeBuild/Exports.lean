import NativeBuild.Target
import NativeBuild.Text.Split

namespace NativeBuild.Exports

def definitionLine (symbol : String) : String := "   " ++ symbol ++ "\n"

def scriptLine (symbol : String) : String := "        " ++ symbol ++ ";\n"

def renderDefinition (symbols : List String) : String :=
  "EXPORTS\n" ++ String.join (symbols.map definitionLine)

def renderScript (symbols : List String) : String :=
  "V1.0 \x7b\n" ++
  (if symbols = [] then "" else "    global:\n" ++ String.join (symbols.map scriptLine)) ++
  "    local: *;\n\x7d;\n"

def render (os : Os) (symbols : List String) : String :=
  if os = .windows then renderDefinition symbols else renderScript symbols

def textLines (text : String) : List (List Char) := (Text.pieces '\n' text.toList).dropLast

def readDefinition (text : String) : List String :=
  ((textLines text).drop 1).map (fun l => String.ofList (l.drop 3))

def readScript (text : String) : List String :=
  (((textLines text).drop 2).dropLast.dropLast).map (fun l => String.ofList ((l.drop 8).dropLast))

def read (os : Os) (text : String) : List String :=
  if os = .windows then readDefinition text else readScript text

end NativeBuild.Exports
