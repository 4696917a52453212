import PipeSql.Diagnostic
import PipeSql.Script.Recognizer
import PipeSql.Script.Term

set_option autoImplicit false

namespace PipeSql

namespace Grammar

open Recognizer

def comma : Recognizer Unit :=
  symbol .comma

def identifier : Recognizer (String × Span) :=
  labelled "identifier" <| spanned <| accept fun
    | .ident name => some name
    | _ => none

def pipe (term : Recognizer Term) : Recognizer Pipe := do
  let source ← term
  let stages ← many (do symbol .pipe; term)
  return ⟨source, stages⟩

def direction : Recognizer Direction :=
  firstOf [
    (do keyword .asc; return .ascending),
    (do keyword .desc; return .descending)]

def directed (term : Recognizer Term) : Recognizer Term := do
  let ((inner, direction), span) ← spanned do
    return (← term, ← optional direction)
  match direction with
  | some direction => return .ordered span inner direction
  | none => return inner

def aliased (term : Recognizer Term) : Recognizer Term := do
  let ((inner, label), span) ← spanned do
    let inner ← term
    let label ← optional do
      keyword .as
      labelled "alias after AS" identifier
    return (inner, label)
  match label with
  | some (label, _) => return .aliased span inner label
  | none => return inner

def onArgument (term : Recognizer Term) : Recognizer Term := do
  let (value, span) ← spanned do
    keyword .on
    symbol .eq
    term
  return .named span "on" value

def argument (term : Recognizer Term) : Recognizer Term :=
  orElse (onArgument term) (directed (aliased term))

def window (term : Recognizer Term) : Recognizer (List Term × List Term) := do
  labelled "'(' after OVER" (symbol .leftParen)
  let partitionBy ← optional do
    keyword .partition
    keyword .by
    separated term comma
  let orderBy ← optional do
    keyword .order
    keyword .by
    separated (directed term) comma
  labelled "')' to close OVER clause" (symbol .rightParen)
  return (partitionBy.getD [], orderBy.getD [])

def call (term : Recognizer Term) : Recognizer Term := do
  let ((head, args, frame), span) ← spanned do
    let (name, nameSpan) ← identifier
    symbol .leftParen
    let distinct ← optional (keyword .distinct)
    let args ← separatedOrNone (argument term) comma
    labelled "')' to close call" (symbol .rightParen)
    let frame ← optional do
      keyword .over
      window term
    return (CallHead.mk name nameSpan distinct.isSome, args, frame)
  match frame with
  | some (partitionBy, orderBy) => return .windowed span head args partitionBy orderBy
  | none => return .call span head args

def lambda (term : Recognizer Term) : Recognizer Term := do
  let ((params, body), span) ← spanned do
    keyword .fn
    labelled "'(' after fn" (symbol .leftParen)
    let params ← separated (labelled "lambda parameter name" identifier) comma
    symbol .rightParen
    labelled "'=>' after lambda parameters" (symbol .arrow)
    let body ← term
    return (params.map Prod.fst, body)
  return .lambda span params body

def branch (term : Recognizer Term) : Recognizer (Term × Term) := do
  keyword .when
  let condition ← term
  keyword .then
  let value ← term
  return (condition, value)

def cases (term : Recognizer Term) : Recognizer Term := do
  let ((operand, branches, otherwise), span) ← spanned do
    keyword .case
    let operand ← optional term
    let first ← branch term
    let others ← many (branch term)
    let otherwise ← optional do
      keyword .else
      term
    keyword .end
    return (operand, first :: others, otherwise)
  return .cases span operand branches otherwise

def existence (term : Recognizer Term) : Recognizer Term := do
  let (query, span) ← spanned do
    keyword .exists
    labelled "'(' after EXISTS" (symbol .leftParen)
    let query ← pipe term
    labelled "')' to close EXISTS" (symbol .rightParen)
    return query
  return .exists span query.source query.stages

-- A parenthesis around a single term is kept; around a pipe with stages it is the pipe.
def parenthesis (term : Recognizer Term) : Recognizer Term := do
  let (query, span) ← spanned do
    symbol .leftParen
    let query ← pipe term
    symbol .rightParen
    return query
  match query.stages with
  | [] => return .paren span query.source
  | stages => return .pipe span query.source stages

def terminal : Recognizer Term := do
  let (shape, span) ← spanned <| accept fun
    | .int digits => some fun span => Term.literal span (.int digits)
    | .decimal digits => some fun span => .literal span (.decimal digits)
    | .str value => some fun span => .literal span (.str value)
    | .keyword .null => some fun span => .literal span .null
    | .param name => some fun span => .param span name
    | .symbol .star => some fun span => .wildcard span none
    | .tableWildcard table => some fun span => .wildcard span (some table)
    | .qualified parts => some fun span => .qualified span parts
    | _ => none
  return shape span

def bareName : Recognizer Term := do
  let (name, span) ← identifier
  return .ident span name

def primary (term : Recognizer Term) : Recognizer Term :=
  labelled "an expression" <|
    firstOf [terminal, call term, bareName, lambda term, cases term, existence term,
      parenthesis term]

def prefixed (op : UnaryOperator) (mark : Recognizer Unit) (operand : Recognizer Term) :
    Recognizer Term := do
  let marks ← many (spanned mark)
  let inner ← operand
  return marks.foldr (fun (_, span) inner => .unary (span.hull inner.span) op inner) inner

def leftward (operand : Recognizer Term) (operator : Recognizer Operator) : Recognizer Term := do
  let first ← operand
  let rest ← many do
    let op ← operator
    let right ← operand
    return (op, right)
  return rest.foldl (fun left (op, right) => .joined op left right) first

def negation (term : Recognizer Term) : Recognizer Term :=
  prefixed .negate (symbol .minus) (primary term)

def product (term : Recognizer Term) : Recognizer Term :=
  leftward (negation term) <| accept fun
    | .symbol .star => some .mul
    | .symbol .slash => some .div
    | .symbol .percent => some .mod
    | _ => none

def sum (term : Recognizer Term) : Recognizer Term :=
  leftward (product term) <| accept fun
    | .symbol .plus => some .add
    | .symbol .minus => some .sub
    | .symbol .concat => some .concat
    | _ => none

def comparisonOperator : Recognizer Operator :=
  accept fun
    | .symbol .eq => some .eq
    | .symbol .eqEq => some .eq
    | .symbol .notEq => some .notEq
    | .symbol .lt => some .lt
    | .symbol .gt => some .gt
    | .symbol .ltEq => some .ltEq
    | .symbol .gtEq => some .gtEq
    | _ => none

def listEntry (term : Recognizer Term) : Recognizer Term := do
  let query ← pipe term
  match query.stages with
  | [] => return query.source
  | stages => return .pipe query.span query.source stages

inductive Tail where
  | compare (op : Operator) (right : Term)
  | isNull (negated : Bool)
  | inList (negated : Bool) (items : List Term)
  | like (negated : Bool) (pattern : Term)

def negated : Recognizer Bool := do
  let word ← optional (keyword .not)
  return word.isSome

def tail (term : Recognizer Term) : Recognizer Tail :=
  firstOf [
    (do
      let op ← comparisonOperator
      let right ← sum term
      return .compare op right),
    (do
      keyword .is
      let negated ← negated
      keyword .null
      return .isNull negated),
    (do
      let negated ← negated
      keyword .in
      labelled "'(' after IN" (symbol .leftParen)
      let items ← separatedOrNone (listEntry term) comma
      labelled "')' to close IN list" (symbol .rightParen)
      return .inList negated items),
    (do
      let negated ← negated
      keyword .like
      let pattern ← sum term
      return .like negated pattern)]

def Tail.attach (span : Span) (left : Term) : Tail → Term
  | .compare op right => .joined op left right
  | .isNull negated => .isNull span left negated
  | .inList negated items => .inList span left items negated
  | .like negated pattern => .like span left pattern negated

def comparison (term : Recognizer Term) : Recognizer Term := do
  let ((left, tail), span) ← spanned do
    return (← sum term, ← optional (tail term))
  match tail with
  | some tail => return tail.attach span left
  | none => return left

def inversion (term : Recognizer Term) : Recognizer Term :=
  prefixed .not (keyword .not) (comparison term)

def conjunction (term : Recognizer Term) : Recognizer Term :=
  leftward (inversion term) do
    keyword .and
    return .and

def disjunction (term : Recognizer Term) : Recognizer Term :=
  leftward (conjunction term) do
    keyword .or
    return .or

-- Only a parenthesis, `exists` and an `in` list lead back to the top of the grammar. They pass a token first,
-- so terms nest no deeper than there are tokens.
def term : Nat → Recognizer Term
  | 0 => fail
  | depth + 1 => disjunction (term depth)

def binding (term : Recognizer Term) : Recognizer ScriptStatement := do
  keyword .let
  let (name, nameSpan) ← labelled "variable name after 'let'" identifier
  labelled "'=' after variable name" (symbol .eq)
  let value ← pipe term
  return .bind name nameSpan value

def statement (term : Recognizer Term) : Recognizer ScriptStatement :=
  orElse (binding term) (.query <$> pipe term)

def script (term : Recognizer Term) : Recognizer Script := do
  let first ← statement term
  let others ← many (statement term)
  atEnd
  return ⟨first, others⟩

end Grammar

namespace Script

inductive Fault where
  | empty
  | unexpected (found : Option Token) (span : Span) (wanted : List String)
deriving DecidableEq, Repr

def insertSorted (text : String) : List String → List String
  | [] => [text]
  | head :: rest =>
    if text < head then text :: head :: rest
    else if text = head then head :: rest
    else head :: insertSorted text rest

def sortedOnce (texts : List String) : List String :=
  texts.foldr insertSorted []

namespace Fault

def span : Fault → Span
  | .empty => ⟨0, 0⟩
  | .unexpected _ span _ => span

def message : Fault → String
  | .empty => "Empty query: expected a statement"
  | .unexpected found _ wanted =>
    let found :=
      match found with
      | some token => "'" ++ token.describe ++ "'"
      | none => "end of input"
    match sortedOnce wanted with
    | [] => "Unexpected " ++ found
    | wanted => "Expected " ++ Text.joinWith " or " wanted ++ " but found " ++ found

def diagnose (source : String) (fault : Fault) : Diagnostic :=
  .located .grammar fault.message source fault.span

def ofStall (lexemes : List Lexeme) (width : Nat) (stall : Option Stall) : Fault :=
  let stall := stall.getD ⟨0, []⟩
  match lexemes[stall.index]? with
  | some lexeme => .unexpected (some lexeme.token) lexeme.span stall.wanted
  | none => .unexpected none ⟨width, width⟩ stall.wanted

end Fault

def parse (lexemes : List Lexeme) (width : Nat) : Except Fault Script :=
  if lexemes.isEmpty then .error .empty
  else
    let attempt := Grammar.script (Grammar.term (lexemes.length + 1)) ⟨0, 0, lexemes⟩
    match attempt.result with
    | some (script, _) => .ok script
    | none => .error (.ofStall lexemes width attempt.stall)

end Script

end PipeSql
