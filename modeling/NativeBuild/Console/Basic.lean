import NativeBuild.Text.Blank

namespace NativeBuild

inductive ColorChoice where
  | auto
  | always
  | never
  deriving DecidableEq, Repr, Inhabited

namespace ColorChoice

def all : List ColorChoice := [auto, always, never]

def name : ColorChoice → String
  | auto => "auto"
  | always => "always"
  | never => "never"

def ofName? (s : String) : Option ColorChoice := all.find? (fun c => c.name == Text.lowerAscii s)

def unknownMessage (s : String) : String :=
  s!"invalid color choice '{s}'; expected 'auto', 'always', or 'never'"

end ColorChoice

structure Console where
  quiet : Bool
  verbose : Bool
  color : Bool
  deriving DecidableEq, Repr

inductive Status where
  | finished
  | created
  | warning
  | error
  deriving DecidableEq, Repr

namespace Status

def name : Status → String
  | finished => "Finished"
  | created => "Created"
  | warning => "Warning"
  | error => "error"

def colorCode : Status → String
  | finished | created => "\x1b[1;32m"
  | warning => "\x1b[1;33m"
  | error => "\x1b[1;31m"

end Status

namespace Console

def ofFlags (quiet verbose : Bool) (color : ColorChoice) (terminal : Bool) : Console where
  quiet
  verbose := verbose && !quiet
  color :=
    match color with
    | .auto => terminal
    | .always => true
    | .never => false

def statusWidth : Nat := 12

def padded (s : String) : String := String.ofList (List.replicate (statusWidth - s.length) ' ') ++ s

def statusName (c : Console) (s : Status) : String :=
  if c.color then s.colorCode ++ padded s.name ++ "\x1b[0m" else padded s.name

def status (c : Console) (s : Status) (message : String) : String :=
  if c.quiet && s != .error then "" else c.statusName s ++ " " ++ message ++ "\n"

end Console

end NativeBuild
