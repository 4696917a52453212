import PipeSql.Formula

set_option autoImplicit false

namespace PipeSql

structure Predicate where
  parameter : String
  body : Formula
deriving DecidableEq, Repr

namespace Predicate

def ofRow (parameter : String) (body : Formula → Formula) : Predicate :=
  ⟨parameter, body (.parameter parameter)⟩

def always (value : Bool) : Predicate :=
  ⟨"x", .constant (.bool value)⟩

-- The combinators give the right side the parameter of the left side, so that the result is about one row
-- again.
def bodyFor (parameter : String) (predicate : Predicate) : Formula :=
  predicate.body.rebind predicate.parameter parameter

protected def and (left right : Predicate) : Predicate :=
  ⟨left.parameter, .binary .and left.body (right.bodyFor left.parameter)⟩

protected def or (left right : Predicate) : Predicate :=
  ⟨left.parameter, .binary .or left.body (right.bodyFor left.parameter)⟩

protected def not (predicate : Predicate) : Predicate :=
  ⟨predicate.parameter, .not predicate.body⟩

def describe (predicate : Predicate) : String :=
  "Predicate \x7b parameter: " ++ Text.quoted predicate.parameter ++ ", body: " ++
    predicate.body.describe ++ " \x7d"

def same (left right : Predicate) : Bool :=
  left.parameter == right.parameter && left.body.same right.body

end Predicate

end PipeSql
