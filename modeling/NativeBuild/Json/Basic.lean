import NativeBuild.Text.Hex

namespace NativeBuild

inductive JsonValue where
  | null
  | bool (b : Bool)
  | number (spelling : List Char)
  | string (text : Option String)
  | array (items : List JsonValue)
  | object (fields : List (Option String × JsonValue))
  deriving Repr, Inhabited

namespace JsonValue

def ofText (s : String) : JsonValue := .string (some s)

def ofTexts (ss : List String) : JsonValue := .array (ss.map ofText)

def ofFields (fields : List (String × JsonValue)) : JsonValue :=
  .object (fields.map (fun e => (some e.1, e.2)))

def escape (c : Char) : List Char :=
  if c = '"' then ['\\', '"']
  else if c = '\\' then ['\\', '\\']
  else if c = '\x08' then ['\\', 'b']
  else if c = '\x0c' then ['\\', 'f']
  else if c = '\n' then ['\\', 'n']
  else if c = '\r' then ['\\', 'r']
  else if c = '\t' then ['\\', 't']
  else if c.toNat < 0x20 then
    ['\\', 'u', '0', '0', Text.hexDigit (c.toNat / 16), Text.hexDigit (c.toNat % 16)]
  else [c]

def quoted (cs : List Char) : List Char := '"' :: cs.flatMap escape ++ ['"']

def loneHalf : List Char := "\"\\ud800\"".toList

def quotedText : Option String → List Char
  | some s => quoted s.toList
  | none => loneHalf

mutual

def written : JsonValue → List Char
  | .null => "null".toList
  | .bool true => "true".toList
  | .bool false => "false".toList
  | .number spelling => spelling
  | .string text => quotedText text
  | .array items => '[' :: writtenItems items ++ [']']
  | .object fields => '\x7b' :: writtenFields fields ++ ['\x7d']

def writtenItems : List JsonValue → List Char
  | [] => []
  | [v] => written v
  | v :: w :: vs => written v ++ ',' :: writtenItems (w :: vs)

def writtenFields : List (Option String × JsonValue) → List Char
  | [] => []
  | [(k, v)] => quotedText k ++ ':' :: written v
  | (k, v) :: e :: es => quotedText k ++ ':' :: written v ++ ',' :: writtenFields (e :: es)

end

end JsonValue

end NativeBuild
