import PipeSql.Token

set_option autoImplicit false

namespace PipeSql

structure Cursor where
  index : Nat
  offset : Nat
  ahead : List Lexeme

-- The furthest token at which any alternative failed, those included that were given up and repetitions that
-- simply ended, and everything wanted there.
structure Stall where
  index : Nat
  wanted : List String
deriving DecidableEq, Repr

def Stall.further : Option Stall → Option Stall → Option Stall
  | none, other => other
  | some stall, none => some stall
  | some left, some right =>
    if left.index < right.index then some right
    else if right.index < left.index then some left
    else some ⟨left.index, left.wanted ++ right.wanted⟩

structure Attempt (α : Type) where
  stall : Option Stall
  result : Option (α × Cursor)

def Recognizer (α : Type) : Type :=
  Cursor → Attempt α

namespace Recognizer

variable {α β : Type}

instance : Monad Recognizer where
  pure value := fun cursor => ⟨none, some (value, cursor)⟩
  bind first next := fun cursor =>
    match first cursor with
    | ⟨stall, none⟩ => ⟨stall, none⟩
    | ⟨stall, some (value, behind)⟩ =>
      let attempt := next value behind
      ⟨Stall.further stall attempt.stall, attempt.result⟩

def fail : Recognizer α :=
  fun _ => ⟨none, none⟩

def refuse (wanted : String) : Recognizer α :=
  fun cursor => ⟨some ⟨cursor.index, [wanted]⟩, none⟩

def next (wanted : String) (use : Token → Option α) : Recognizer α := fun cursor =>
  match cursor.ahead with
  | [] => refuse wanted cursor
  | lexeme :: ahead =>
    match use lexeme.token with
    | some value => ⟨none, some (value, ⟨cursor.index + 1, lexeme.span.stop, ahead⟩)⟩
    | none => refuse wanted cursor

def accept (use : Token → Option α) : Recognizer α :=
  next "something else" use

def token (expected : Token) : Recognizer Unit :=
  next ("'" ++ expected.describe ++ "'") fun token => if token = expected then some () else none

def keyword (word : Keyword) : Recognizer Unit :=
  token (.keyword word)

def symbol (mark : Symbol) : Recognizer Unit :=
  token (.symbol mark)

def atEnd : Recognizer Unit := fun cursor =>
  if cursor.ahead.isEmpty then ⟨none, some ((), cursor)⟩ else refuse "end of input" cursor

def labelled (label : String) (inner : Recognizer α) : Recognizer α := fun cursor =>
  let attempt := inner cursor
  match attempt.stall with
  | some stall =>
    if stall.index = cursor.index then ⟨some ⟨cursor.index, [label]⟩, attempt.result⟩ else attempt
  | none => attempt

def orElse (first second : Recognizer α) : Recognizer α := fun cursor =>
  match first cursor with
  | ⟨stall, some result⟩ => ⟨stall, some result⟩
  | ⟨stall, none⟩ =>
    let attempt := second cursor
    ⟨Stall.further stall attempt.stall, attempt.result⟩

def firstOf : List (Recognizer α) → Recognizer α
  | [] => fail
  | first :: rest => orElse first (firstOf rest)

def optional (inner : Recognizer α) : Recognizer (Option α) :=
  orElse (some <$> inner) (pure none)

def upTo (inner : Recognizer α) : Nat → Recognizer (List α)
  | 0 => pure []
  | bound + 1 => orElse (do return (← inner) :: (← upTo inner bound)) (pure [])

-- Each takes a token at least, so there are no more of them than tokens, and the attempt that ends the
-- repetition is within the bound too.
def many (inner : Recognizer α) : Recognizer (List α) :=
  fun cursor => upTo inner (cursor.ahead.length + 1) cursor

-- A separator that nothing follows is not taken.
def separated (inner : Recognizer α) (separator : Recognizer Unit) : Recognizer (List α) := do
  let first ← inner
  let rest ← many (do separator; inner)
  return first :: rest

def separatedOrNone (inner : Recognizer α) (separator : Recognizer Unit) :
    Recognizer (List α) :=
  orElse (separated inner separator) (pure [])

def spanned (inner : Recognizer α) : Recognizer (α × Span) := fun cursor =>
  let start := (cursor.ahead.head?.map fun lexeme => lexeme.span.start).getD cursor.offset
  let attempt := inner cursor
  let marked := attempt.result.map fun (value, behind) => ((value, ⟨start, behind.offset⟩), behind)
  ⟨attempt.stall, marked⟩

end Recognizer

end PipeSql
