namespace NativeBuild.Text

def isBlank (c : Char) : Bool :=
  let n := c.toNat
  (9 ≤ n && n ≤ 13) || n == 0x20 || n == 0x85 || n == 0xA0 || n == 0x1680 ||
    (0x2000 ≤ n && n ≤ 0x200A) || n == 0x2028 || n == 0x2029 || n == 0x202F || n == 0x205F || n == 0x3000

def trimStart (cs : List Char) : List Char := cs.dropWhile isBlank

def trimEnd (cs : List Char) : List Char := (cs.reverse.dropWhile isBlank).reverse

def trim (cs : List Char) : List Char := trimEnd (trimStart cs)

def words (cs : List Char) : List (List Char) :=
  match _h : trimStart cs with
  | [] => []
  | c :: rest => (c :: rest).takeWhile (fun c => !isBlank c) :: words (rest.dropWhile (fun c => !isBlank c))
termination_by cs.length
decreasing_by
  have h1 : (trimStart cs).length ≤ cs.length := (List.dropWhile_sublist _).length_le
  have h2 : (rest.dropWhile (fun c => !isBlank c)).length ≤ rest.length := (List.dropWhile_sublist _).length_le
  rw [_h] at h1
  simp at h1
  omega

def lowerAscii (s : String) : String := String.ofList (s.toList.map Char.toLower)

end NativeBuild.Text
