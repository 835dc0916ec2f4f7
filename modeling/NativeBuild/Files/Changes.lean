import NativeBuild.Files.Tree

namespace NativeBuild.FileTree

inductive Shown where
  | file (bytes : List UInt8)
  | emptyDirectory
  deriving DecidableEq, Repr

def shown? (t : FileTree) (place : Place) : Option Shown :=
  match t.node? place with
  | some (.file bytes _) => some (.file bytes)
  | some .directory => if t.namesIn place = [] then some .emptyDirectory else none
  | none => none

def shownBelow (t : FileTree) (base : Place) : List (Place × Shown) :=
  t.nodes.keys.filterMap (fun k => if base.isPrefixOf k && k != base then (t.shown? k).map (k, ·) else none)

def relativeText (base : Place) (entry : Place × Shown) : String :=
  String.intercalate "/" (entry.1.drop base.length) ++
    (match entry.2 with
      | .file _ => ""
      | .emptyDirectory => "/")

structure Changes where
  written : List (String × Shown)
  removed : List String
  deriving DecidableEq, Repr

def changes (before after : FileTree) (base : Place) : Changes where
  written := ((after.shownBelow base).filter (fun e => before.shown? e.1 != some e.2)).map
    (fun e => (relativeText base e, e.2))
  removed := (((before.shownBelow base).filter (fun e => (after.node? e.1).isNone)).map
    (relativeText base)).mergeSort (fun a b => decide (a ≤ b))

end NativeBuild.FileTree
