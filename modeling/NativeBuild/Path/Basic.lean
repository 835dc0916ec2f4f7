import NativeBuild.Text.Split

namespace NativeBuild

structure Path where
  text : String
  deriving DecidableEq, Repr, Inhabited

namespace Path

inductive Component where
  | root
  | current
  | parent
  | name (text : String)
  deriving DecidableEq, Repr

namespace Component

def rank : Component → Nat
  | .root => 0
  | .current => 1
  | .parent => 2
  | .name _ => 3

def label : Component → String
  | .name s => s
  | _ => ""

instance : Ord Component := ⟨compareLex (compareOn rank) (compareOn label)⟩

instance : Std.TransOrd Component :=
  inferInstanceAs (Std.TransCmp (compareLex (compareOn rank) (compareOn label)))

theorem compare_eq_iff {a b : Component} : compare a b = .eq ↔ a.rank = b.rank ∧ a.label = b.label := by
  show (compareOn rank a b).then (compareOn label a b) = .eq ↔ _
  rw [Ordering.then_eq_eq]
  simp [compareOn]

instance : Std.LawfulEqOrd Component where
  compare_self := compare_eq_iff.2 ⟨rfl, rfl⟩
  eq_of_compare := by
    intro a b h
    obtain ⟨hr, hl⟩ := compare_eq_iff.1 h
    cases a <;> cases b <;> simp_all [rank, label]

end Component

def chars (p : Path) : List Char := p.text.toList

def ofChars (cs : List Char) : Path := ⟨String.ofList cs⟩

@[simp] theorem chars_ofChars (cs : List Char) : (ofChars cs).chars = cs := by simp [chars, ofChars]

def isAbsolute (p : Path) : Bool := p.chars.head? == some '/'

def isSilent (piece : List Char) : Bool := piece == [] || piece == ['.']

def dropSilentEnd (ps : List (List Char)) : List (List Char) := (ps.reverse.dropWhile isSilent).reverse

/-- The pieces of a path after its anchor, which is a leading separator or a leading dot. -/
structure Anatomy where
  anchor : Option (List Char)
  body : List (List Char)
  deriving DecidableEq, Repr

def anatomy (p : Path) : Anatomy :=
  match Text.pieces '/' p.chars with
  | [] => ⟨none, []⟩
  | [[]] => ⟨none, []⟩
  | [] :: rest => ⟨some [], rest⟩
  | ['.'] :: rest => ⟨some ['.'], rest⟩
  | ps => ⟨none, ps⟩

def Anatomy.toPath (a : Anatomy) : Path :=
  match a.anchor with
  | none => ofChars (Text.joinPieces '/' a.body)
  | some [] => ofChars ('/' :: Text.joinPieces '/' a.body)
  | some dot => ofChars (Text.joinPieces '/' (dot :: a.body))

def componentOfPiece (piece : List Char) : Component :=
  if piece = ['.', '.'] then .parent else .name (String.ofList piece)

def components (p : Path) : List Component :=
  let a := p.anatomy
  let body := (a.body.filter (fun q => !isSilent q)).map componentOfPiece
  match a.anchor with
  | none => body
  | some [] => .root :: body
  | some _ => .current :: body

def Same (p q : Path) : Prop := p.components = q.components

instance (p q : Path) : Decidable (p.Same q) := inferInstanceAs (Decidable (_ = _))

/-- Paths are ordered by their components, so that `a/b` comes before `a-b`. -/
def le (p q : Path) : Bool := (compare p.components q.components).isLE

def sort (ps : List Path) : List Path := ps.mergeSort le

structure Last where
  anchor : Option (List Char)
  front : List (List Char)
  piece : List Char
  trailing : Bool
  deriving DecidableEq, Repr

def last? (p : Path) : Option Last :=
  let a := p.anatomy
  match a.body.reverse.dropWhile isSilent with
  | [] => none
  | piece :: front => some ⟨a.anchor, front.reverse, piece, a.body.length != front.length + 1⟩

def fileName? (p : Path) : Option String :=
  match p.last? with
  | some l => if l.piece = ['.', '.'] then none else some (String.ofList l.piece)
  | none => none

def splitName (name : List Char) : List Char × Option (List Char) :=
  match Text.cutLast '.' name with
  | some (stem, ext) => if stem = [] then (name, none) else (stem, some ext)
  | none => (name, none)

def fileStem? (p : Path) : Option String :=
  p.fileName?.map (fun n => String.ofList (splitName n.toList).1)

def extension? (p : Path) : Option String :=
  p.fileName?.bind (fun n => (splitName n.toList).2.map String.ofList)

def parent? (p : Path) : Option Path :=
  match p.last? with
  | some l => some (Anatomy.toPath ⟨l.anchor, dropSilentEnd l.front⟩)
  | none => if p.anatomy.anchor = some ['.'] then some ⟨""⟩ else none

def join (base p : Path) : Path :=
  if p.isAbsolute then p
  else if base.chars = [] then p
  else if base.chars.getLast? = some '/' then ⟨base.text ++ p.text⟩
  else ⟨base.text ++ "/" ++ p.text⟩

instance : Div Path := ⟨join⟩

def child (base : Path) (name : String) : Path := base.join ⟨name⟩

def Component.text : Component → String
  | .root => "/"
  | .current => "."
  | .parent => ".."
  | .name s => s

def extend (base : Path) (cs : List Component) : Path := cs.foldl (fun p c => p.child c.text) base

def startingAt (p base : Path) : Path :=
  if p.isAbsolute then p else base.extend (p.components.filter (· ≠ .current))

def addExtension (p : Path) (suffix : String) : Path := ⟨p.text ++ "." ++ suffix⟩

/-- The extension is first cut off the end of the text, its dot left standing, and then the
extension of what is left is replaced. A name that has become `..` is no file name and stays. -/
def withExtension (p : Path) (ext : String) : Path :=
  match p.last? with
  | none => p
  | some l =>
    if l.piece = ['.', '.'] then p
    else
      let at_ (piece : List Char) := Anatomy.toPath ⟨l.anchor, l.front ++ [piece]⟩
      match splitName l.piece with
      | (name, none) => at_ (name ++ '.' :: ext.toList)
      | (stem, some _) =>
        if stem = ['.'] && !l.trailing then at_ ['.', '.'] else at_ (stem ++ '.' :: ext.toList)

def withFileName (p : Path) (name : String) : Path :=
  match p.fileName? with
  | none => p.child name
  | some _ => (p.parent?.getD ⟨""⟩).child name

end Path

end NativeBuild
