import PipeSql.Toml.Scalar

set_option autoImplicit false

namespace PipeSql.Toml

def isGap (c : Char) : Bool :=
  c == ' ' || c == '\t'

def skipGaps (chars : List Char) : List Char :=
  chars.dropWhile isGap

def isPlain (c : Char) : Bool :=
  c == '\t' || (32 ≤ c.toNat && c.toNat != 127)

-- A carriage return ends a line only together with a line feed.
def skipFiller : Bool → List Char → Option (List Char)
  | _, [] => some []
  | inComment, c :: rest =>
    if c = '\n' then skipFiller false rest
    else if c = '\r' then if rest.head? = some '\n' then skipFiller false rest else none
    else if inComment then if isPlain c then skipFiller true rest else none
    else if isGap c then skipFiller false rest
    else if c = '#' then skipFiller true rest
    else some (c :: rest)

def code? (count : Nat) (chars : List Char) : Option (Char × List Char) :=
  let digits := chars.take count
  let code := ofBase 16 digits
  if digits.length = count ∧ digits.all isHexDigit ∧ code.isValidChar then
    some (Char.ofNat code, chars.drop count)
  else none

def escape? : List Char → Option (Char × List Char)
  | [] => none
  | c :: rest =>
    if c = '"' ∨ c = '\\' then some (c, rest)
    else if c = 'b' then some ('\x08', rest)
    else if c = 't' then some ('\t', rest)
    else if c = 'n' then some ('\n', rest)
    else if c = 'f' then some ('\x0c', rest)
    else if c = 'r' then some ('\r', rest)
    else if c = 'e' then some ('\x1b', rest)
    else if c = 'x' then code? 2 rest
    else if c = 'u' then code? 4 rest
    else if c = 'U' then code? 8 rest
    else none

def basic? : Nat → List Char → Option (List Char × List Char)
  | 0, _ => none
  | _, [] => none
  | fuel + 1, c :: rest =>
    if c = '"' then some ([], rest)
    else if c = '\\' then do
      let (meant, after) ← escape? rest
      let (value, beyond) ← basic? fuel after
      return (meant :: value, beyond)
    else if isPlain c then do
      let (value, beyond) ← basic? fuel rest
      return (c :: value, beyond)
    else none

def verbatim? : List Char → Option (List Char × List Char)
  | [] => none
  | c :: rest =>
    if c = '\'' then some ([], rest)
    else if isPlain c then (verbatim? rest).map fun (value, after) => (c :: value, after)
    else none

def endsLine (chars : List Char) : Bool :=
  match skipGaps chars with
  | '\n' :: _ => true
  | '\r' :: '\n' :: _ => true
  | _ => false

def skipLayout : List Char → List Char
  | [] => []
  | '\r' :: '\n' :: rest => skipLayout rest
  | c :: rest => if isGap c || c == '\n' then skipLayout rest else c :: rest

-- Three quotes end the text, and up to two more before them belong to it; a backslash at the end of a line
-- takes the layout up to the next character with it.
def multiline? (quote : Char) : Nat → List Char → Option (List Char × List Char)
  | 0, _ => none
  | _, [] => none
  | fuel + 1, c :: rest =>
    let quotes := min ((c :: rest).takeWhile (· == quote)).length 5
    if 3 ≤ quotes then some (List.replicate (quotes - 3) quote, (c :: rest).drop quotes)
    else if c = '\\' ∧ quote = '"' then
      if endsLine rest then multiline? quote fuel (skipLayout rest)
      else do
        let (meant, after) ← escape? rest
        let (value, beyond) ← multiline? quote fuel after
        return (meant :: value, beyond)
    else if c = '\r' ∧ rest.head? ≠ some '\n' then none
    else if isPlain c ∨ c = '\n' ∨ c = '\r' then do
      let (value, beyond) ← multiline? quote fuel rest
      return (c :: value, beyond)
    else none

def skipFirstLineEnd : List Char → List Char
  | '\n' :: rest => rest
  | '\r' :: '\n' :: rest => rest
  | chars => chars

def quoted? (chars : List Char) : Option (List Char × List Char) :=
  match chars with
  | '"' :: '"' :: '"' :: rest => multiline? '"' (rest.length + 1) (skipFirstLineEnd rest)
  | '\'' :: '\'' :: '\'' :: rest => multiline? '\'' (rest.length + 1) (skipFirstLineEnd rest)
  | '"' :: rest => basic? (rest.length + 1) rest
  | '\'' :: rest => verbatim? rest
  | _ => none

def isKeyChar (c : Char) : Bool :=
  c.isAlphanum || c == '_' || c == '-'

def keyPart? (chars : List Char) : Option (String × List Char) :=
  match chars with
  | '"' :: rest =>
    (basic? (rest.length + 1) rest).map fun (name, after) => (String.ofList name, after)
  | '\'' :: rest => (verbatim? rest).map fun (name, after) => (String.ofList name, after)
  | _ =>
    let name := chars.takeWhile isKeyChar
    if name.isEmpty then none else some (String.ofList name, chars.dropWhile isKeyChar)

def key? : Nat → List Char → Option (List String × List Char)
  | 0, _ => none
  | fuel + 1, chars => do
    let (name, rest) ← keyPart? (skipGaps chars)
    match skipGaps rest with
    | '.' :: more =>
      let (names, after) ← key? fuel more
      return (name :: names, after)
    | after => return ([name], after)

def assignment? (skip : List Char → Option (List Char))
    (value? : List Char → Option (Toml × List Char)) (chars : List Char) :
    Option ((List String × Toml) × List Char) := do
  let (key, rest) ← key? (chars.length + 1) chars
  match ← skip rest with
  | '=' :: content =>
    let (value, after) ← value? (← skip content)
    return ((key, value), after)
  | _ => none

def items? {α : Type} (item? : List Char → Option (α × List Char)) (closing : Char) :
    Nat → List Char → Option (List α × List Char)
  | 0, _ => none
  | fuel + 1, chars => do
    match ← skipFiller false chars with
    | [] => none
    | c :: rest =>
      if c = closing then return ([], rest)
      else
        let (first, after) ← item? (c :: rest)
        match ← skipFiller false after with
        | [] => none
        | d :: beyond =>
          if d = closing then return ([first], beyond)
          else if d = ',' then
            let (others, rest) ← items? item? closing fuel beyond
            return (first :: others, rest)
          else none

def inline? (assignments : List (List String × Toml)) : Option Toml :=
  (assignments.foldlM (fun fields (key, value) => Fields.assign? value true key fields) []).map
    (.table .inline)

def value? : Nat → List Char → Option (Toml × List Char)
  | bound, chars =>
    match chars with
    | '"' :: _ | '\'' :: _ =>
      (quoted? chars).map fun (value, after) => (.text (String.ofList value), after)
    | '[' :: rest =>
      match bound with
      | 0 => none
      | bound + 1 =>
        (items? (value? bound) ']' (rest.length + 1) rest).map fun (items, after) =>
          (.list items, after)
    | '\x7b' :: rest =>
      match bound with
      | 0 => none
      | bound + 1 => do
        let (assignments, after) ←
          items? (assignment? (skipFiller false) (value? bound)) '\x7d' (rest.length + 1) rest
        return (← inline? assignments, after)
    | _ => (scalar? (splitScalar chars).1).map fun value => (value, (splitScalar chars).2)

def line? (chars : List Char) : Option (Line × List Char) :=
  match chars with
  | '[' :: '[' :: rest => do
    let (key, after) ← key? (rest.length + 1) rest
    match after with
    | ']' :: ']' :: beyond => return (.openElement key, beyond)
    | _ => none
  | '[' :: rest => do
    let (key, after) ← key? (rest.length + 1) rest
    match after with
    | ']' :: beyond => return (.openTable key, beyond)
    | _ => none
  | _ =>
    (assignment? (fun rest => some (skipGaps rest)) (value? 80) chars).map
      fun ((key, value), after) => (.assign key value, after)

def isDone (chars : List Char) : Bool :=
  match skipGaps chars with
  | [] => true
  | c :: _ => c == '\n' || c == '\r' || c == '#'

def lines? : Nat → List Char → Option (List Line)
  | 0, _ => none
  | fuel + 1, chars => do
    match ← skipFiller false chars with
    | [] => return []
    | start =>
      let (line, rest) ← line? start
      if isDone rest then return line :: (← lines? fuel rest) else none

-- A byte order mark is passed over.
def read? (text : String) : Option Fields :=
  let chars :=
    match text.toList with
    | '\uFEFF' :: rest => rest
    | chars => chars
  (lines? (chars.length + 1) chars).bind ofLines?

end PipeSql.Toml
