set_option autoImplicit false

namespace PipeSql.Text

def asciiLower (text : String) : String :=
  String.ofList (text.toList.map Char.toLower)

def asciiUpper (text : String) : String :=
  String.ofList (text.toList.map Char.toUpper)

def sameWord (left right : String) : Bool :=
  asciiLower left == asciiLower right

def joinWith (separator : String) : List String → String
  | [] => ""
  | [last] => last
  | first :: rest => first ++ separator ++ joinWith separator rest

def width : List Char → Nat
  | [] => 0
  | c :: rest => c.utf8Size + width rest

def splitWidth : Nat → List Char → List Char × List Char
  | _, [] => ([], [])
  | room, c :: rest =>
    if c.utf8Size ≤ room then
      let (fitting, beyond) := splitWidth (room - c.utf8Size) rest
      (c :: fitting, beyond)
    else ([], c :: rest)

def isNameStart (c : Char) : Bool :=
  c.isAlpha || c == '_'

def isNamePart (c : Char) : Bool :=
  c.isAlphanum || c == '_'

def isBlank (c : Char) : Bool :=
  let code := c.toNat
  (9 ≤ code && code ≤ 13) || code == 32 || code == 0x85 || code == 0xA0 || code == 0x1680 ||
    (0x2000 ≤ code && code ≤ 0x200A) || code == 0x2028 || code == 0x2029 || code == 0x202F ||
    code == 0x205F || code == 0x3000

def trim (text : String) : String :=
  String.ofList ((text.toList.dropWhile isBlank).reverse.dropWhile isBlank).reverse

def inRanges (code : Nat) : List (Nat × Nat) → Bool
  | [] => false
  | (low, high) :: rest =>
    if code < low then false else if code ≤ high then true else inRanges code rest

def doubleQuotes : List Char → List Char
  | [] => []
  | c :: rest => if c = '\'' then '\'' :: '\'' :: doubleQuotes rest else c :: doubleQuotes rest

def escapeLiteral (text : String) : String :=
  String.ofList (doubleQuotes text.toList)

def sqlLiteral (text : String) : String :=
  "'" ++ escapeLiteral text ++ "'"

theorem width_append (left right : List Char) :
    width (left ++ right) = width left + width right := by
  induction left with
  | nil => simp [width]
  | cons c rest ih => simp [width, ih, Nat.add_assoc]

theorem split_width_append (room : Nat) (chars : List Char) :
    (splitWidth room chars).1 ++ (splitWidth room chars).2 = chars := by
  induction chars generalizing room with
  | nil => rfl
  | cons c rest ih =>
    unfold splitWidth
    split
    · simpa using ih (room - c.utf8Size)
    · rfl

end PipeSql.Text
