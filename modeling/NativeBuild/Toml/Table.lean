import NativeBuild.Toml.Value

/-!
Tables of a TOML document while it is read. A table that only its parts have brought about can still
be opened by a header of its own; one that dotted keys have made can be added to by dotted keys only.
-/

namespace NativeBuild.Toml

inductive Origin where
  | header
  | implied
  | dotted
  deriving DecidableEq, Repr

inductive Item where
  | value (v : TomlValue)
  | table (origin : Origin) (entries : List (String × Item))
  | tables (elements : List (List (String × Item)))
  deriving Repr, Inhabited

abbrev Entries := List (String × Item)

mutual

def Item.toValue : Item → TomlValue
  | .value v => v
  | .table _ entries => .table (entryValues entries)
  | .tables elements => .array (elementValues elements)

def entryValues : List (String × Item) → List (String × TomlValue)
  | [] => []
  | (k, item) :: rest => (k, item.toValue) :: entryValues rest

def elementValues : List (List (String × Item)) → List TomlValue
  | [] => []
  | entries :: rest => .table (entryValues entries) :: elementValues rest

end

def find? (key : String) (entries : Entries) : Option Item := (entries.find? (fun e => e.1 = key)).map (·.2)

def put (key : String) (item : Item) : Entries → Entries
  | [] => [(key, item)]
  | e :: es => if e.1 = key then (key, item) :: es else e :: put key item es

def drop (key : String) (entries : Entries) : Entries := entries.filter (fun e => e.1 ≠ key)

/-- Goes down a path and changes the table there, which is told how it came to be. Tables that are
missing on the way are made. Values are no tables, and dotted keys go through no table of a header. -/
def change {α : Type} (dotted : Bool) (f : Origin → Entries → Option (α × Entries)) :
    List String → Origin → Entries → Option (α × Entries)
  | [], origin, entries => f origin entries
  | key :: path, _, entries =>
    let made : Origin := if dotted then .dotted else .implied
    match (find? key entries).getD (.table made []) with
    | .value _ => none
    | .table origin inner =>
      if dotted && origin == .header then none
      else (change dotted f path origin inner).map (fun (a, inner) => (a, put key (.table origin inner) entries))
    | .tables elements =>
      match elements.getLast? with
      | none => none
      | some last =>
        (change dotted f path .header last).map (fun (a, last) =>
          (a, put key (.tables (elements.dropLast ++ [last])) entries))

/-- Puts a value under a dotted key. No key is given twice, and a table takes dotted keys only from
dotted keys. -/
def assign (path : List String) (v : TomlValue) (entries : Entries) : Option Entries :=
  match path.getLast? with
  | none => none
  | some key =>
    let single := path.length == 1
    let add (origin : Origin) (inner : Entries) : Option (Unit × Entries) :=
      if (origin == .dotted) == single then none
      else if (find? key inner).isSome then none
      else some ((), inner ++ [(key, .value v)])
    (change true add path.dropLast .header entries).map (·.2)

structure Opened where
  path : List String
  element : Bool
  entries : Entries
  deriving Repr

structure State where
  root : Entries
  opened : Opened
  deriving Repr

def start : State := ⟨[], ⟨[], false, []⟩⟩

def closeTable (key : String) (entries : Entries) (_ : Origin) (inner : Entries) : Option (Unit × Entries) :=
  if (find? key inner).isSome then none else some ((), inner ++ [(key, .table .header entries)])

def closeElement (key : String) (entries : Entries) (_ : Origin) (inner : Entries) : Option (Unit × Entries) :=
  match (find? key inner).getD (.tables []) with
  | .tables elements => some ((), put key (.tables (elements ++ [entries])) inner)
  | _ => none

def close (s : State) : Option Entries :=
  match s.opened.path.getLast? with
  | none => some s.opened.entries
  | some key =>
    let put := if s.opened.element then closeElement key s.opened.entries else closeTable key s.opened.entries
    (change false put s.opened.path.dropLast .header s.root).map (·.2)

/-- Takes out the table that a header opens; only one that was implied can be there already. -/
def takeTable (key : String) (_ : Origin) (inner : Entries) : Option (Entries × Entries) :=
  match find? key inner with
  | none => some ([], inner)
  | some (.table .implied entries) => some (entries, drop key inner)
  | some _ => none

def checkElement (key : String) (_ : Origin) (inner : Entries) : Option (Unit × Entries) :=
  match (find? key inner).getD (.tables []) with
  | .tables elements => some ((), put key (.tables elements) inner)
  | _ => none

def openTable (path : List String) (s : State) : Option State := do
  let root ← close s
  let key ← path.getLast?
  let (entries, root) ← change false (takeTable key) path.dropLast .header root
  return ⟨root, ⟨path, false, entries⟩⟩

def openElement (path : List String) (s : State) : Option State := do
  let root ← close s
  let key ← path.getLast?
  let ((), root) ← change false (checkElement key) path.dropLast .header root
  return ⟨root, ⟨path, true, []⟩⟩

def assignOpened (path : List String) (v : TomlValue) (s : State) : Option State :=
  (assign path v s.opened.entries).map (fun entries => { s with opened := { s.opened with entries } })

end NativeBuild.Toml
