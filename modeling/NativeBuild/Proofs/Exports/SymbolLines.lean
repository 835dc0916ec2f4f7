import Mathlib.Data.Set.Function
import NativeBuild.Exports

namespace NativeBuild.Exports

def Unbroken (texts : List String) : Prop := ∀ t ∈ texts, '\n' ∉ t.toList

variable {symbols lines : List String} {text : String} {l : List Char}

theorem textLines_join (h : Unbroken lines) :
    textLines (String.join (lines.map (· ++ "\n"))) = lines.map String.toList := by
  have hchars : (String.join (lines.map (· ++ "\n"))).toList = (lines.map String.toList).flatMap (· ++ ['\n']) := by
    simp [String.toList_join, List.flatMap_map]
  have hlines : ∀ l ∈ lines.map String.toList, '\n' ∉ l := List.forall_mem_map.mpr h
  rw [textLines, hchars, Text.pieces_flatMap hlines, List.dropLast_concat]

theorem break_not_mem_of_mem_textLines (h : l ∈ textLines text) : '\n' ∉ l :=
  Text.not_mem_of_mem_pieces (List.dropLast_subset _ h)

def definitionEntry (symbol : String) : String := "   " ++ symbol

def definitionLines (symbols : List String) : List String := "EXPORTS" :: symbols.map definitionEntry

theorem renderDefinition_eq (symbols : List String) :
    renderDefinition symbols = String.join ((definitionLines symbols).map (· ++ "\n")) := by
  rw [definitionLines, List.map_cons, String.join_cons, List.map_map]
  rfl

theorem unbroken_definitionLines (h : Unbroken symbols) : Unbroken (definitionLines symbols) := by
  rw [Unbroken, definitionLines, List.forall_mem_cons, List.forall_mem_map]
  refine ⟨by decide, fun s hs => ?_⟩
  rw [definitionEntry, String.toList_append, List.mem_append]
  exact not_or.mpr ⟨by decide, h s hs⟩

theorem ofList_definitionEntry (symbol : String) :
    String.ofList ((definitionEntry symbol).toList.drop 3) = symbol := by
  rw [definitionEntry, String.toList_append, List.drop_left' (by decide), String.ofList_toList]

theorem readDefinition_renderDefinition (h : Unbroken symbols) :
    readDefinition (renderDefinition symbols) = symbols := by
  rw [readDefinition, renderDefinition_eq, textLines_join (unbroken_definitionLines h), definitionLines, List.map_cons,
    List.drop_one, List.tail_cons, List.map_map, List.map_map]
  exact List.map_id'' ofList_definitionEntry symbols

def scriptEntry (symbol : String) : String := "        " ++ symbol ++ ";"

def scriptGlobals (symbols : List String) : List String :=
  if symbols = [] then [] else "    global:" :: symbols.map scriptEntry

def scriptLines (symbols : List String) : List String :=
  "V1.0 \x7b" :: scriptGlobals symbols ++ ["    local: *;", "\x7d;"]

theorem renderScript_eq (symbols : List String) :
    renderScript symbols = String.join ((scriptLines symbols).map (· ++ "\n")) := by
  rw [renderScript, scriptLines, scriptGlobals]
  split
  · decide
  · have hentries : (symbols.map scriptEntry).map (· ++ "\n") = symbols.map scriptLine := by
      rw [List.map_map]
      exact List.map_congr_left (fun s _ => by simp [scriptEntry, scriptLine, String.append_assoc])
    simp [hentries, String.append_assoc]

theorem unbroken_scriptGlobals (h : Unbroken symbols) : Unbroken (scriptGlobals symbols) := by
  rw [Unbroken, scriptGlobals]
  split
  · exact List.forall_mem_nil _
  · rw [List.forall_mem_cons, List.forall_mem_map]
    refine ⟨by decide, fun s hs => ?_⟩
    rw [scriptEntry, String.toList_append, String.toList_append, List.mem_append, List.mem_append]
    exact not_or.mpr ⟨not_or.mpr ⟨by decide, h s hs⟩, by decide⟩

theorem unbroken_scriptLines (h : Unbroken symbols) : Unbroken (scriptLines symbols) := by
  rw [Unbroken, scriptLines, List.cons_append, List.forall_mem_cons, List.forall_mem_append]
  exact ⟨by decide, unbroken_scriptGlobals h, by decide⟩

theorem ofList_scriptEntry (symbol : String) :
    String.ofList (((scriptEntry symbol).toList.drop 8).dropLast) = symbol := by
  have hdrop : (scriptEntry symbol).toList.drop 8 = symbol.toList ++ [';'] := by
    rw [scriptEntry, String.toList_append, String.toList_append, List.append_assoc, List.drop_left' (by decide)]
    rfl
  rw [hdrop, List.dropLast_concat, String.ofList_toList]

theorem scriptEntries_scriptLines (symbols : List String) :
    ((scriptLines symbols).drop 2).dropLast.dropLast = symbols.map scriptEntry := by
  rw [scriptLines, scriptGlobals]
  split
  · next hnone => rw [hnone]; rfl
  · simp

theorem readScript_renderScript (h : Unbroken symbols) : readScript (renderScript symbols) = symbols := by
  rw [readScript, renderScript_eq, textLines_join (unbroken_scriptLines h), ← List.map_drop, ← List.map_dropLast,
    ← List.map_dropLast, scriptEntries_scriptLines, List.map_map, List.map_map]
  exact List.map_id'' ofList_scriptEntry symbols

theorem read_render (os : Os) (h : Unbroken symbols) : read os (render os symbols) = symbols := by
  rw [read, render]
  split
  · exact readDefinition_renderDefinition h
  · exact readScript_renderScript h

theorem unbroken_read (os : Os) (text : String) : Unbroken (read os text) := by
  intro s hs
  rw [read] at hs
  split at hs
  · obtain ⟨l, hl, rfl⟩ := List.mem_map.mp hs
    rw [String.toList_ofList]
    intro hbreak
    exact break_not_mem_of_mem_textLines (List.mem_of_mem_drop hl) (List.mem_of_mem_drop hbreak)
  · obtain ⟨l, hl, rfl⟩ := List.mem_map.mp hs
    rw [String.toList_ofList]
    intro hbreak
    have hline : l ∈ textLines text := List.mem_of_mem_drop (List.dropLast_subset _ (List.dropLast_subset _ hl))
    exact break_not_mem_of_mem_textLines hline (List.mem_of_mem_drop (List.dropLast_subset _ hbreak))

theorem render_lossless (os : Os) :
    (∀ symbols, read os (render os symbols) = symbols ↔ ∀ s ∈ symbols, '\n' ∉ s.toList) ∧
      Set.InjOn (render os) {symbols | ∀ s ∈ symbols, '\n' ∉ s.toList} := by
  refine ⟨fun symbols => ⟨?_, read_render os⟩, ?_⟩
  · intro h
    rw [← h]
    exact unbroken_read os _
  · intro a ha b hb hsame
    rw [← read_render os ha, hsame, read_render os hb]

def disguised : List String := ["    global:", "a;", "", "\x7d;", "    local: *;", "a;", "V1.0 \x7b", "EXPORTS"]

theorem disguised_render_lossless :
    (∀ s ∈ disguised, '\n' ∉ s.toList) ∧ read .windows (render .windows disguised) = disguised ∧
      read .linux (render .linux disguised) = disguised ∧ read .uefi (render .uefi []) = [] := by
  have hlines : ∀ s ∈ disguised, '\n' ∉ s.toList := by decide
  exact ⟨hlines, ((render_lossless .windows).1 disguised).mpr hlines, ((render_lossless .linux).1 disguised).mpr hlines,
    ((render_lossless .uefi).1 []).mpr (List.forall_mem_nil _)⟩

example : render .windows ["a\n   b"] = render .windows ["a", "b"] := by decide

end NativeBuild.Exports
