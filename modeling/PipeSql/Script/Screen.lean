import PipeSql.Script.Grammar
import PipeSql.Text
import PipeSql.Text.DecimalDigit
import PipeSql.Text.WordChar
import PipeSql.Token.Lexer

set_option autoImplicit false

namespace PipeSql.Screen

inductive Region where
  | code
  | comment
  | literal
  | doubled
deriving DecidableEq, Repr

def Region.step (region : Region) (c : Char) (following : Option Char) : Bool × Region :=
  match region with
  | .code =>
    if c = '-' ∧ following = some '-' then (true, .comment)
    else if c = '\'' then (true, .literal)
    else (false, .code)
  | .comment => if c = '\n' then (false, .code) else (true, .comment)
  | .literal =>
    if c = '\'' then if following = some '\'' then (true, .doubled) else (true, .code)
    else (true, .literal)
  | .doubled => (true, .literal)

-- As many spaces as the character has bytes, so that offsets stay what they were.
def blanks (c : Char) : List Char :=
  if c = '\n' then ['\n'] else List.replicate c.utf8Size ' '

def blankOut (region : Region) : List Char → List Char
  | [] => []
  | c :: rest =>
    let (blanked, following) := region.step c rest.head?
    (if blanked then blanks c else [c]) ++ blankOut following rest

structure Place where
  behind : Option Char
  offset : Nat
  ahead : List Char

namespace Place

def advance (place : Place) (c : Char) (rest : List Char) : Place :=
  ⟨some c, place.offset + c.utf8Size, rest⟩

def run (keep : Char → Bool) (place : Place) : List Char × Place :=
  go place.behind place.offset place.ahead
where
  go (behind : Option Char) (offset : Nat) : List Char → List Char × Place
    | [] => ([], ⟨behind, offset, []⟩)
    | c :: rest =>
      if keep c then
        let (kept, after) := go (some c) (offset + c.utf8Size) rest
        (c :: kept, after)
      else ([], ⟨behind, offset, c :: rest⟩)

def char? (expected : Char) (place : Place) : Option Place :=
  match place.ahead with
  | c :: rest => if c = expected then some (place.advance c rest) else none
  | [] => none

def blank (place : Place) : Place :=
  (place.run Text.isBlank).2

def blank? (place : Place) : Option Place :=
  match place.ahead with
  | c :: _ => if Text.isBlank c then some place.blank else none
  | [] => none

def atBoundary (place : Place) : Bool :=
  (place.behind.map Text.isWordChar).getD false == false

def atLineStart (place : Place) : Bool :=
  (place.behind.map (· == '\n')).getD true

end Place

structure Word where
  text : String
  span : Span
deriving DecidableEq, Repr

def Word.ofRun (start stop : Place) (chars : List Char) : Word :=
  ⟨String.ofList chars, ⟨start.offset, stop.offset⟩⟩

def name? (place : Place) : Option (Word × Place) :=
  match place.ahead with
  | c :: _ =>
    if Text.isNameStart c then
      let (chars, after) := place.run Text.isWordChar
      some (Word.ofRun place after chars, after)
    else none
  | [] => none

def occurrences {α : Type} (pattern : Place → Option (α × Place)) : Nat → Place → List α
  | 0, _ => []
  | fuel + 1, place =>
    match pattern place with
    | some (found, after) => found :: occurrences pattern fuel after
    | none =>
      match place.ahead with
      | [] => []
      | c :: rest => occurrences pattern fuel (place.advance c rest)

def allIn {α : Type} (pattern : Place → Option (α × Place)) (text : List Char) : List α :=
  occurrences pattern (text.length + 1) ⟨none, 0, text⟩

def adjacentNames (place : Place) : Option ((Word × Word) × Place) := do
  guard place.atBoundary
  let (first, place) ← name? place
  let place ← place.blank?
  let (second, place) ← name? place
  let place ← place.blank.char? '('
  return ((first, second), place)

def letBinding (place : Place) : Option ((Word × Word) × Place) := do
  guard place.atBoundary
  let place ← place.char? 'l'
  let place ← place.char? 'e'
  let place ← place.char? 't'
  let place ← place.blank?
  let (bound, place) ← name? place
  let place ← place.blank.char? '='
  let (first, place) ← name? place.blank
  return ((bound, first), place)

-- The underscore stands right behind ASCII letters and digits.
def digitName (place : Place) : Option (Word × Place) := do
  guard place.atBoundary
  match place.ahead with
  | [] => none
  | d :: rest =>
    guard (Text.isDecimalDigit d)
    let (letters, middle) := (place.advance d rest).run Char.isAlphanum
    let after ← middle.char? '_'
    let (others, after) := after.run Text.isWordChar
    return (Word.ofRun place after (d :: letters ++ '_' :: others), after)

def pipedName (place : Place) : Option (Word × Place) := do
  let (base, place) ← name? place.blank
  let place ← place.blank.char? '|'
  let place ← place.char? '>'
  return (base, place)

def pipeBase (place : Place) : Option (Word × Place) :=
  (if place.atLineStart then pipedName place else none)
    <|> ((place.char? '=').bind pipedName)
    <|> ((place.char? '(').bind pipedName)

inductive Fault where
  | missingPipe (table function : Word)
  | circular (name : String) (span : Span)
  | digitName (word : Word)
  | undefined (word : Word)
deriving DecidableEq, Repr

namespace Fault

def span : Fault → Span
  | .missingPipe _ function => function.span
  | .circular _ span => span
  | .digitName word => word.span
  | .undefined word => word.span

def message : Fault → String
  | .missingPipe table function =>
    "Missing pipe operator '|>' between '" ++ table.text ++ "' and '" ++ function.text ++ "'"
  | .circular name _ => "Circular reference detected in variable '" ++ name ++ "'"
  | .digitName word =>
    "Invalid identifier '" ++ word.text ++ "': identifiers cannot start with a number"
  | .undefined word => "Undefined variable '" ++ word.text ++ "'"

def diagnose (source : String) (fault : Fault) : Diagnostic :=
  .located .semantic fault.message source fault.span

end Fault

def isKeyword (word : Word) : Bool :=
  (Keyword.ofWord? word.text).isSome

def missingPipe? (text : List Char) : Option Fault :=
  (allIn adjacentNames text).findSome? fun (table, function) =>
    if isKeyword table || isKeyword function then none else some (.missingPipe table function)

abbrev Bindings := List (Word × Word)

-- The last binding of a name counts.
def Bindings.target? (bindings : Bindings) (name : String) : Option String :=
  (bindings.reverse.find? fun binding => binding.1.text = name).map fun binding => binding.2.text

def Bindings.revisits? (bindings : Bindings) : Nat → List String → String → Option String
  | 0, _, _ => none
  | fuel + 1, visited, current =>
    match bindings.target? current with
    | none => none
    | some next =>
      if visited.contains next then some next
      else bindings.revisits? fuel (next :: visited) next

-- Each step visits another bound name, so there are no more steps than bindings.
def circular? (bindings : Bindings) : Option Fault :=
  bindings.findSome? fun (bound, _) =>
    (bindings.revisits? (bindings.length + 1) [bound.text] bound.text).map fun name =>
      let first := bindings.find? fun binding => binding.1.text = name
      .circular name ((first.map fun binding => binding.1.span).getD ⟨0, 0⟩)

def digitName? (text : List Char) : Option Fault :=
  (allIn digitName text).head?.map .digitName

-- Only a name with an underscore is taken for a variable; any other may be a table.
def undefined? (bindings : Bindings) (text : List Char) : Option Fault :=
  (allIn pipeBase text).findSome? fun base =>
    let bound := bindings.any fun (bound, _) =>
      bound.text = base.text && bound.span.start < base.span.start
    if !base.text.toList.contains '_' || isKeyword base || bound then none
    else some (.undefined base)

def fault? (source : String) : Option Fault :=
  let text := blankOut .code source.toList
  let bindings := allIn letBinding text
  missingPipe? text <|> circular? bindings <|> digitName? text <|> undefined? bindings text

end PipeSql.Screen

namespace PipeSql.Script

def screen (source : String) : Except Diagnostic Unit :=
  match Screen.fault? source with
  | some fault => .error (fault.diagnose source)
  | none => .ok ()

def read (source : String) (screened : Bool) : Except Diagnostic Script := do
  let lexemes ← (tokenize source).mapError (·.diagnose source)
  if screened then screen source
  (parse lexemes (Text.width source.toList)).mapError (·.diagnose source)

end PipeSql.Script
