import NativeBuild.CommandLine.Grammar

/-!
Reading arguments by a grammar, one after the other. The values of an option or of a positional are
checked only when the next option begins or the arguments end; a fault of the grammar that shows before
then is reported first.
-/

namespace NativeBuild

abbrev Given := List (OptionName × String)

namespace Given

def isSet (g : Given) (name : OptionName) : Bool := g.any (fun e => e.1 = name)

def values (g : Given) (name : OptionName) : List String := (g.filter (fun e => e.1 = name)).map (·.2)

def value? (g : Given) (name : OptionName) : Option String := (g.values name).head?

end Given

structure Pending where
  name : OptionName
  shape : OptionShape
  values : List String

structure Reading where
  given : Given := []
  pending : Option Pending := none
  expects : Option OptionShape := none
  onlyPositional : Bool := false

namespace Reading

/-- Checks the values of an option and takes them. That none is there shows first, then that the option
stands once too often, then that a value is wrong. -/
def record (r : Reading) (p : Pending) : Except UsageError Reading :=
  if p.shape.kind?.isSome && p.values.isEmpty then .error .invalidValue
  else if r.given.isSet p.name && !p.shape.mayRepeat then .error .conflict
  else
    match p.shape.kind? with
    | none => .ok { r with given := r.given ++ [(p.name, "")] }
    | some kind =>
      match p.values.findSome? kind.fault? with
      | some e => .error e
      | none => .ok { r with given := r.given ++ p.values.map (fun v => (p.name, v)) }

def settle (r : Reading) : Except UsageError Reading :=
  match r.pending with
  | none => .ok r
  | some p => { r with pending := none }.record p

def complete (r : Reading) (o : OptionForm) (values : List String) : Except UsageError Reading := do
  let r ← r.settle
  match o.shape with
  | .wish e => throw e
  | shape => record { r with expects := none } ⟨o.name, shape, values⟩

def await (r : Reading) (o : OptionForm) : Except UsageError Reading := do
  let r ← r.settle
  return { r with pending := some ⟨o.name, o.shape, []⟩, expects := some o.shape }

def takeValue (r : Reading) (value : String) : Reading :=
  { r with
    pending := r.pending.map (fun p => { p with values := p.values ++ [value] })
    expects := none }

def takeLong (g : Grammar) (r : Reading) (spelling : String) (attached : Option String) :
    Except UsageError Reading :=
  match g.long? spelling with
  | none => .error .unknownArgument
  | some o =>
    match o.shape.kind?.isSome, attached with
    | true, some value => r.complete o [value]
    | true, none => r.await o
    | false, some _ => .error .needlessValue
    | false, none => r.complete o []

/-- Takes letters that stand for options. The letter of an option with a value ends them: what follows
it, less an equals sign, is the value. -/
def takeLetters (g : Grammar) (r : Reading) : List Char → Except UsageError Reading
  | [] => .ok r
  | c :: rest =>
    match g.short? c with
    | none => .error .unknownArgument
    | some o =>
      if o.shape.kind?.isSome then
        match rest with
        | [] => r.await o
        | '=' :: value => r.complete o [String.ofList value]
        | value => r.complete o [String.ofList value]
      else do takeLetters g (← r.complete o []) rest

def collects (r : Reading) (name : OptionName) : Bool :=
  match r.pending with
  | some p => p.name == name
  | none => false

def begin (r : Reading) (p : Pending) : Except UsageError Reading := do
  let r ← r.settle
  return { r with pending := some p, expects := none }

def takePositional (g : Grammar) (r : Reading) (arg : String) : Except UsageError Reading :=
  match g.positional with
  | .absent =>
    if r.onlyPositional && arg ∈ g.subcommands then .error .unknownArgument else .error .unknownSubcommand
  | .many name kind =>
    if r.collects name then .ok (r.takeValue arg) else r.begin ⟨name, .many kind false, [arg]⟩
  | .required name kind =>
    if r.collects name || r.given.isSet name then .error .unknownArgument
    else r.begin ⟨name, .single kind, [arg]⟩

def takeWord (g : Grammar) (r : Reading) (arg : String) : Except UsageError Reading :=
  if r.expects.isSome then .ok (r.takeValue arg) else r.takePositional g arg

def take (g : Grammar) (r : Reading) (arg : String) : Except UsageError Reading :=
  if r.onlyPositional then r.takePositional g arg
  else if (r.expects.map (·.takesAnything)).getD false then .ok (r.takeValue arg)
  else
    match arg.toList with
    | ['-', '-'] => .ok { r with onlyPositional := true }
    | '-' :: '-' :: cs =>
      match Text.cutFirst '=' cs with
      | some (spelling, value) => r.takeLong g (String.ofList spelling) (some (String.ofList value))
      | none => r.takeLong g (String.ofList cs) none
    | '-' :: c :: cs => r.takeLetters g (c :: cs)
    | _ => r.takeWord g arg

def leaves (g : Grammar) (r : Reading) (arg : String) : Bool :=
  !r.onlyPositional && r.expects.isNone && arg ∈ g.subcommands

def takeAll (g : Grammar) : Reading → List String → Except UsageError (Reading × List String)
  | r, [] => .ok (r, [])
  | r, arg :: rest =>
    if r.leaves g arg then .ok (r, arg :: rest)
    else do takeAll g (← r.take g arg) rest

def fault? (g : Grammar) (given : Given) : Option UsageError :=
  if given.isSet .quiet && given.isSet .verbose then some .conflict
  else
    match g.positional with
    | .required name _ => if given.isSet name then none else some .missingArgument
    | _ => none

def finish (g : Grammar) (r : Reading) : Except UsageError Given := do
  let r ← r.settle
  match fault? g r.given with
  | some e => throw e
  | none => return r.given

end Reading

end NativeBuild
