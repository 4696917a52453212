import PipeSql.Source

set_option autoImplicit false

namespace PipeSql

inductive Operator where
  | or | and | eq | notEq | lt | gt | ltEq | gtEq | add | sub | mul | div | mod | concat
deriving DecidableEq, Repr

namespace Operator

def precedence : Operator → Nat
  | .or => 1
  | .and => 2
  | .eq | .notEq | .lt | .gt | .ltEq | .gtEq => 3
  | .add | .sub | .concat => 4
  | .mul | .div | .mod => 5

def isComparison (op : Operator) : Bool :=
  op.precedence == 3

def sql : Operator → String
  | .or => "OR"
  | .and => "AND"
  | .eq => "="
  | .notEq => "<>"
  | .lt => "<"
  | .gt => ">"
  | .ltEq => "<="
  | .gtEq => ">="
  | .add => "+"
  | .sub => "-"
  | .mul => "*"
  | .div => "/"
  | .mod => "%"
  | .concat => "||"

end Operator

inductive UnaryOperator where
  | negate | not
deriving DecidableEq, Repr

inductive Direction where
  | ascending | descending
deriving DecidableEq, Repr

def Direction.sql : Direction → String
  | .ascending => "ASC"
  | .descending => "DESC"

inductive Literal where
  | str (value : String)
  | int (digits : String)
  | decimal (digits : String)
  | null
deriving DecidableEq, Repr

structure CallHead where
  name : String
  nameSpan : Span
  distinct : Bool
deriving DecidableEq, Repr

inductive Term where
  | ident (span : Span) (name : String)
  | qualified (span : Span) (parts : List String)
  | wildcard (span : Span) (table : Option String)
  | param (span : Span) (name : String)
  | literal (span : Span) (value : Literal)
  | call (span : Span) (head : CallHead) (args : List Term)
  | windowed (span : Span) (head : CallHead) (args partitionBy orderBy : List Term)
  | lambda (span : Span) (params : List String) (body : Term)
  | cases (span : Span) (operand : Option Term) (branches : List (Term × Term))
      (otherwise : Option Term)
  | binary (span : Span) (op : Operator) (left right : Term)
  | unary (span : Span) (op : UnaryOperator) (operand : Term)
  | isNull (span : Span) (operand : Term) (negated : Bool)
  | inList (span : Span) (operand : Term) (items : List Term) (negated : Bool)
  | like (span : Span) (operand pattern : Term) (negated : Bool)
  | exists (span : Span) (source : Term) (stages : List Term)
  | paren (span : Span) (inner : Term)
  | pipe (span : Span) (source : Term) (stages : List Term)
  | aliased (span : Span) (inner : Term) (label : String)
  | ordered (span : Span) (inner : Term) (direction : Direction)
  | named (span : Span) (name : String) (value : Term)
deriving Repr, Inhabited

namespace Term

def span : Term → Span
  | .ident span _ | .qualified span _ | .wildcard span _ | .param span _ | .literal span _
  | .call span _ _ | .windowed span _ _ _ _ | .lambda span _ _ | .cases span _ _ _
  | .binary span _ _ _ | .unary span _ _ | .isNull span _ _ | .inList span _ _ _
  | .like span _ _ _ | .exists span _ _ | .paren span _ | .pipe span _ _ | .aliased span _ _
  | .ordered span _ _ | .named span _ _ => span

mutual

def height : Term → Nat
  | .ident .. | .qualified .. | .wildcard .. | .param .. | .literal .. => 1
  | .call _ _ args => heights args + 1
  | .windowed _ _ args partitionBy orderBy =>
    max (heights args) (max (heights partitionBy) (heights orderBy)) + 1
  | .lambda _ _ body => body.height + 1
  | .cases _ operand branches otherwise =>
    max (optionHeight operand) (max (branchHeights branches) (optionHeight otherwise)) + 1
  | .binary _ _ left right => max left.height right.height + 1
  | .unary _ _ operand => operand.height + 1
  | .isNull _ operand _ => operand.height + 1
  | .inList _ operand items _ => max operand.height (heights items) + 1
  | .like _ operand pattern _ => max operand.height pattern.height + 1
  | .exists _ source stages => max source.height (heights stages) + 1
  | .paren _ inner => inner.height + 1
  | .pipe _ source stages => max source.height (heights stages) + 1
  | .aliased _ inner _ => inner.height + 1
  | .ordered _ inner _ => inner.height + 1
  | .named _ _ value => value.height + 1

def heights : List Term → Nat
  | [] => 0
  | term :: rest => max term.height (heights rest)

def optionHeight : Option Term → Nat
  | none => 0
  | some term => term.height

def branchHeights : List (Term × Term) → Nat
  | [] => 0
  | (condition, value) :: rest => max (max condition.height value.height) (branchHeights rest)

end

def joined (op : Operator) (left right : Term) : Term :=
  .binary (left.span.hull right.span) op left right

end Term

structure Pipe where
  source : Term
  stages : List Term
deriving Repr, Inhabited

def Pipe.span (pipe : Pipe) : Span :=
  pipe.stages.foldl (fun span stage => span.hull stage.span) pipe.source.span

def Pipe.height (pipe : Pipe) : Nat :=
  max pipe.source.height (Term.heights pipe.stages)

inductive ScriptStatement where
  | bind (name : String) (nameSpan : Span) (value : Pipe)
  | query (value : Pipe)
deriving Repr

def ScriptStatement.pipe : ScriptStatement → Pipe
  | .bind _ _ value => value
  | .query value => value

structure Script where
  first : ScriptStatement
  others : List ScriptStatement
deriving Repr

def Script.statements (script : Script) : List ScriptStatement :=
  script.first :: script.others

end PipeSql
