namespace NativeBuild.Text

def replaceAll (mark new : List Char) : List Char → List Char
  | [] => []
  | c :: cs =>
    if mark ≠ [] ∧ mark.isPrefixOf (c :: cs) then new ++ replaceAll mark new (cs.drop (mark.length - 1))
    else c :: replaceAll mark new cs
termination_by cs => cs.length
decreasing_by all_goals (simp only [List.length_drop, List.length_cons]; omega)

def containsText (part : List Char) : List Char → Bool
  | [] => part == []
  | c :: cs => part.isPrefixOf (c :: cs) || containsText part cs

end NativeBuild.Text
