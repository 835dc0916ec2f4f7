import NativeBuild.Text.Blank
import NativeBuild.Text.Run
import NativeBuild.Text.Word

namespace NativeBuild.Source

def isTypeChar (c : Char) : Bool := Text.isWord c || ['<', '>', '[', ']', '.'].contains c

def isParameterChar (c : Char) : Bool := c != ',' && c != '(' && c != ')'

def readsMethod (cs : List Char) : Bool :=
  let found : Option (List Char) := do
    let rest ← Text.afterRun isTypeChar cs
    let rest ← Text.afterRun Text.isBlank rest
    let rest ← Text.afterWord ['M', 'a', 'i', 'n'] rest
    let rest ← Text.afterChar '(' (Text.trimStart rest)
    Text.afterChar ')' (rest.dropWhile isParameterChar)
  found.isSome

/-- A word `async` may be a modifier or the type itself. -/
def readsModified (cs : List Char) : Bool :=
  let afterModifier : Option (List Char) := do
    let rest ← Text.afterWord ['a', 's', 'y', 'n', 'c'] cs
    Text.afterRun Text.isBlank rest
  readsMethod cs || afterModifier.any readsMethod

def readsDeclaration (cs : List Char) : Bool :=
  let afterStatic : Option (List Char) := do
    let rest ← Text.afterWord ['s', 't', 'a', 't', 'i', 'c'] cs
    Text.afterRun Text.isBlank rest
  afterStatic.any readsModified

def declaresAfter (inWord : Bool) : List Char → Bool
  | [] => false
  | c :: cs => (!inWord && readsDeclaration (c :: cs)) || declaresAfter (Text.isWord c) cs

def declaresEntryPoint (source : String) : Bool := declaresAfter false source.toList

end NativeBuild.Source
