import PipeSql.Formula.Sql
import PipeSql.Predicate

set_option autoImplicit false

namespace PipeSql

inductive QueryOp where
  | filter (predicate : Predicate)
  | select (columns : List Formula)
  | orderBy (key : Formula) (direction : SortDirection)
  | thenBy (key : Formula) (direction : SortDirection)
  | take (count : Nat)
  | skip (count : Nat)
  | distinct
  | groupBy (keys : List Formula)
deriving DecidableEq, Repr

structure Query where
  table : String
  ops : List QueryOp
deriving DecidableEq, Repr

namespace Query

def ofTable (table : String) : Query :=
  ⟨table, []⟩

def record (query : Query) (op : QueryOp) : Query :=
  { query with ops := query.ops ++ [op] }

end Query

namespace Formula

def isLooseOr : Formula → Bool
  | .binary .or left right => left.truth?.isNone || right.truth?.isNone
  | _ => false

def conditions (formula : Formula) : Except Fault (List (Condition Column)) := do
  let sql ← formula.predicate
  return if formula.isLooseOr then [.opening, .expression sql, .closing] else [.expression sql]

def orderItem (direction : SortDirection) (key : Formula) : Except Fault OrderItem := do
  return ⟨← key.value, direction⟩

end Formula

namespace QueryOp

-- Restrictions and groupings add up; a projection, a limit or an offset takes the place of the one before; an
-- ordering starts anew unless it is said to continue.
def apply (statement : Statement) : QueryOp → Except Formula.Fault Statement
  | .filter predicate => do return statement.restrict (← predicate.body.conditions)
  | .select columns => do return { statement with columns := ← columns.mapM Formula.column }
  | .orderBy key direction => do
    return { statement with orderBy := [← key.orderItem direction] }
  | .thenBy key direction => do return statement.orderOn [← key.orderItem direction]
  | .take count => return { statement with limit := some (toString count) }
  | .skip count => return { statement with offset := some (toString count) }
  | .distinct => return { statement with distinct := true }
  | .groupBy keys => do return statement.groupOn (← keys.mapM Formula.column)

end QueryOp

def Query.statement (query : Query) : Except Formula.Fault Statement :=
  query.ops.foldlM QueryOp.apply (Statement.empty.withBase (.named query.table))

end PipeSql
