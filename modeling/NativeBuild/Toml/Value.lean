namespace NativeBuild

inductive TomlValue where
  | string (text : String)
  | integer
  | float
  | boolean (b : Bool)
  | date
  | array (items : List TomlValue)
  | table (entries : List (String × TomlValue))
  deriving Repr, Inhabited

end NativeBuild
