import PipeSql.Text

set_option autoImplicit false

namespace PipeSql

structure Span where
  start : Nat
  stop : Nat
deriving DecidableEq, Repr, Inhabited

def Span.hull (left right : Span) : Span :=
  ⟨min left.start right.start, max left.stop right.stop⟩

-- The line counts from one, the column and the character offsets from zero, and the stop is exclusive.
structure Location where
  line : Nat
  column : Nat
  start : Nat
  stop : Nat
  snippet : String
deriving DecidableEq, Repr

namespace Location

def lineTail (chars : List Char) : List Char :=
  (chars.reverse.takeWhile (· != '\n')).reverse

-- A carriage return that is part of the break does not belong to the line.
def lineHead : List Char → List Char
  | [] => []
  | '\r' :: '\n' :: _ => []
  | c :: rest => if c = '\n' then [] else c :: lineHead rest

-- An offset inside a character or beyond the end moves back to the nearest boundary before it, and a stop
-- before the start counts as the start.
def ofSpan (source : String) (span : Span) : Location :=
  let (before, after) := Text.splitWidth span.start source.toList
  let (inside, _) := Text.splitWidth (span.stop - Text.width before) after
  let column := (lineTail before).length
  let line := lineHead (lineTail before ++ after)
  { line := before.count '\n' + 1
    column := column
    start := before.length
    stop := before.length + inside.length
    snippet := String.ofList
      (line ++ '\n' :: List.replicate column ' ' ++ List.replicate (max inside.length 1) '^') }

def origin (source : String) : Location :=
  ofSpan source ⟨0, 0⟩

def describe (location : Location) : String :=
  "Line " ++ toString location.line ++ ", column " ++ toString location.column

end Location

end PipeSql
