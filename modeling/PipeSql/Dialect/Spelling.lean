import PipeSql.Dialect

set_option autoImplicit false

namespace PipeSql

-- Expressions are held as SQL text in a common spelling, and respelled when they are written. String literals
-- are left alone, and so is a name behind a dot.
inductive Piece where
  -- The closing quote may be missing at the end of the text.
  | literal (chars : List Char)
  | bars
  | word (chars : List Char)
  | other (c : Char)
deriving DecidableEq, Repr

namespace Piece

def literalEnd : List Char → List Char × List Char
  | [] => ([], [])
  | '\'' :: '\'' :: rest => ('\'' :: '\'' :: (literalEnd rest).1, (literalEnd rest).2)
  | c :: rest =>
    if c = '\'' then (['\''], rest) else (c :: (literalEnd rest).1, (literalEnd rest).2)

theorem literal_end_append (chars : List Char) :
    (literalEnd chars).1 ++ (literalEnd chars).2 = chars := by
  induction chars using literalEnd.induct with
  | case1 => rfl
  | case2 rest ih => simpa [literalEnd] using ih
  | case3 rest _ => simp [literalEnd]
  | case4 c rest _ notQuote ih => simpa [literalEnd, notQuote] using ih

def split (chars : List Char) : List Piece :=
  match chars with
  | [] => []
  | c :: rest =>
    if c = '\'' then .literal (c :: (literalEnd rest).1) :: split (literalEnd rest).2
    else if c = '|' ∧ rest.head? = some '|' then .bars :: split rest.tail
    else if Text.isNameStart c then
      .word (c :: rest.takeWhile Text.isNamePart) :: split (rest.dropWhile Text.isNamePart)
    else .other c :: split rest
termination_by chars.length
decreasing_by
  · have := congrArg List.length (literal_end_append rest)
    simp only [List.length_append, List.length_cons] at this ⊢
    omega
  · simp only [List.length_tail, List.length_cons]
    omega
  · have := (List.dropWhile_suffix Text.isNamePart (l := rest)).length_le
    simp only [List.length_cons]
    omega
  · simp

def chars : Piece → List Char
  | .literal chars => chars
  | .bars => ['|', '|']
  | .word chars => chars
  | .other c => [c]

end Piece

structure Spelling where
  rename : String → Option String
  concat : String

namespace Spelling

def isBare (function : String) : Bool :=
  ["CURRENT_TIMESTAMP", "CURRENT_DATE", "CURRENT_TIME"].contains function

def renamed? (spelling : Spelling) (qualified : Bool) (word : List Char) (rest : List Piece) :
    Option String :=
  if qualified then none
  else
    match rest with
    | .other '(' :: _ => spelling.rename (Text.asciiUpper (String.ofList word))
    | _ => none

-- A function that is called without an argument list loses the empty one that it has.
def write (spelling : Spelling) (qualified : Bool) : List Piece → List Char
  | [] => []
  | .literal chars :: rest => chars ++ spelling.write false rest
  | .bars :: rest => spelling.concat.toList ++ spelling.write false rest
  | .other c :: rest => c :: spelling.write (c == '.') rest
  | .word chars :: rest =>
    match spelling.renamed? qualified chars rest, rest with
    | none, rest => chars ++ spelling.write false rest
    | some name, .other '(' :: .other ')' :: rest =>
      name.toList ++ (if isBare name then [] else ['(', ')']) ++ spelling.write false rest
    | some name, rest => name.toList ++ spelling.write false rest

def respell (spelling : Spelling) (text : String) : String :=
  String.ofList (spelling.write false (Piece.split text.toList))

end Spelling

namespace Dialect

def rename? (dialect : Dialect) (function : String) : Option String :=
  match dialect, function with
  | .sqlite, "SUBSTRING" => some "SUBSTR"
  | .sqlite, "CEILING" => some "CEIL"
  | .sqlite, "NOW" => some "CURRENT_TIMESTAMP"
  | .postgresql, "IFNULL" => some "COALESCE"
  | .postgresql, "SUBSTR" => some "SUBSTRING"
  | .sqlserver, "LENGTH" => some "LEN"
  | .sqlserver, "NOW" => some "GETDATE"
  | .sqlserver, "IFNULL" => some "ISNULL"
  | .sqlserver, "SUBSTR" => some "SUBSTRING"
  | .sqlserver, "CEIL" => some "CEILING"
  | _, _ => none

def concatOperator : Dialect → String
  | .sqlserver => "+"
  | _ => "||"

def spelling (dialect : Dialect) : Spelling :=
  ⟨dialect.rename?, dialect.concatOperator⟩

def respell (dialect : Dialect) (text : String) : String :=
  dialect.spelling.respell text

end Dialect

end PipeSql
