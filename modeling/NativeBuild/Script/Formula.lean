namespace NativeBuild.Script.Formula

inductive Item where
  | number (n : Int64)
  | name (s : String)
  | sign (s : String)
  deriving DecidableEq, Repr

def isBlank (c : Char) : Bool := c == ' ' || c == '\t' || c == '\n'

def clamp (n : Int) : Int64 := Int64.ofInt (max (-9223372036854775808) (min 9223372036854775807 n))

def number? (text : String) : Option Int64 :=
  let cs := ((text.toList.dropWhile isBlank).reverse.dropWhile isBlank).reverse
  (String.ofList (if cs.head? = some '+' then cs.tail else cs)).toInt?.map clamp

def signs : List String :=
  ["<=", ">=", "==", "!=", "+", "-", "*", "/", "%", "<", ">", "!", "(", ")"]

def items : Nat → List Char → List Item
  | 0, _ => []
  | _, [] => []
  | fuel + 1, c :: cs =>
    let inName (c : Char) := c.isAlphanum || c == '_'
    if isBlank c then items fuel cs
    else if c.isDigit then
      .number (clamp ((String.ofList ((c :: cs).takeWhile Char.isDigit)).toNat?.getD 0)) ::
        items fuel (cs.dropWhile Char.isDigit)
    else if inName c then .name (String.ofList ((c :: cs).takeWhile inName)) :: items fuel (cs.dropWhile inName)
    else
      let s := (signs.find? (fun s => s.toList.isPrefixOf (c :: cs))).getD c.toString
      .sign s :: items fuel ((c :: cs).drop s.length)

def rank : String → Nat
  | "*" | "/" | "%" => 4
  | "+" | "-" => 3
  | "<" | "<=" | ">" | ">=" => 2
  | "==" | "!=" => 1
  | _ => 0

def truth (b : Bool) : Int64 := if b then 1 else 0

def apply (op : String) (a b : Int64) : Except String Int64 :=
  match op with
  | "*" => .ok (a * b)
  | "/" => if b = 0 then .error "division by zero" else .ok (a / b)
  | "%" => if b = 0 then .error "division by zero" else .ok (a % b)
  | "+" => .ok (a + b)
  | "-" => .ok (a - b)
  | "<" => .ok (truth (a < b))
  | "<=" => .ok (truth (a ≤ b))
  | ">" => .ok (truth (a > b))
  | ">=" => .ok (truth (a ≥ b))
  | "==" => .ok (truth (a == b))
  | _ => .ok (truth (a != b))

variable (get : String → Except String Int64)

mutual

def takePrimary : Nat → List Item → Except String (Int64 × List Item)
  | 0, _ => .error "expecting primary"
  | fuel + 1, ts =>
    match ts with
    | .number n :: ts => .ok (n, ts)
    | .name s :: ts => (get s).map (·, ts)
    | .sign "(" :: ts => do
      match ← takeSum fuel 1 ts with
      | (a, .sign ")" :: ts) => return (a, ts)
      | _ => throw "expecting ')'"
    | .sign "-" :: ts => (takePrimary fuel ts).map (fun (a, ts) => (-a, ts))
    | .sign "+" :: ts => takePrimary fuel ts
    | .sign "!" :: ts => (takePrimary fuel ts).map (fun (a, ts) => (truth (a == 0), ts))
    | _ => .error "expecting primary"

def takeSum : Nat → Nat → List Item → Except String (Int64 × List Item)
  | 0, _, _ => .error "expecting primary"
  | fuel + 1, least, ts => do
    let (a, ts) ← takePrimary fuel ts
    takeMore fuel least a ts

def takeMore : Nat → Nat → Int64 → List Item → Except String (Int64 × List Item)
  | 0, _, a, ts => .ok (a, ts)
  | fuel + 1, least, a, ts =>
    match ts with
    | .sign op :: rest =>
      if rank op < least then .ok (a, ts)
      else do
        let (b, rest) ← takeSum fuel (rank op + 1) rest
        takeMore fuel least (← apply op a b) rest
    | _ => .ok (a, ts)

end

def eval (cs : List Char) : Except String Int64 := do
  let ts := items (cs.length + 1) cs
  match ← takeSum get (4 * ts.length + 4) 1 ts with
  | (a, []) => return a
  | _ => throw "expecting EOF"

end NativeBuild.Script.Formula
