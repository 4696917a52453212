import PipeSql.Diagnostic
import PipeSql.Formula
import PipeSql.Statement

set_option autoImplicit false

namespace PipeSql

namespace Formula

inductive Fault where
  | parameterAsPredicate (name : String)
  | parameterAsValue (name : String)
  | constantAsPredicate (value : Value)
  | comparedWithNull (op : BinaryOp)
  | argumentNotText
deriving DecidableEq, Repr

def Fault.message : Fault → String
  | .parameterAsPredicate name => "Parameter '" ++ name ++ "' cannot be used as a predicate"
  | .parameterAsValue name => "Parameter '" ++ name ++ "' cannot be used as a value"
  | .constantAsPredicate value => "Constant " ++ value.describe ++ " cannot be used as a predicate"
  | .comparedWithNull op => "Operator '" ++ op.sql ++ "' cannot compare against NULL"
  | .argumentNotText => "String method argument must be a string constant"

def Fault.diagnose (fault : Fault) : Diagnostic :=
  ⟨.unsupported, fault.message, none⟩

def truthSql (value : Bool) : String :=
  if value then "1=1" else "1=0"

-- A member is the test of a flag as a predicate and a column as a value; a truth value is a comparison of
-- constants in the one and a digit in the other.
def valueGiven (predicate : Except Fault String) : Formula → Except Fault String
  | .member _ name => .ok name
  | .constant value => .ok value.literal
  | .parameter name => .error (.parameterAsValue name)
  | .binary _ _ _ | .not _ | .test _ _ _ => predicate

def conjunct (formula : Formula) (sql : String) : String :=
  match formula with
  | .binary .or left right =>
    if left.truth?.isSome && right.truth?.isSome then sql else "(" ++ sql ++ ")"
  | _ => sql

def nullTest (op : BinaryOp) (sql : String) : Except Fault String :=
  match op with
  | .equal => .ok (sql ++ " IS NULL")
  | .notEqual => .ok (sql ++ " IS NOT NULL")
  | other => .error (.comparedWithNull other)

-- With NULL on one side, only the other side is looked at.
def comparison (op : BinaryOp) (left right : Formula) (leftValue rightValue : Except Fault String) :
    Except Fault String :=
  match left, right with
  | _, .constant .null => do nullTest op (← leftValue)
  | .constant .null, _ => do nullTest op (← rightValue)
  | _, _ => do return (← leftValue) ++ " " ++ op.sql ++ " " ++ (← rightValue)

def connected (fold : Bool → Bool → Bool) (join : String → String → String) (left right : Formula)
    (leftSql rightSql : Except Fault String) : Except Fault String :=
  match left.truth?, right.truth? with
  | some leftTruth, some rightTruth => .ok (truthSql (fold leftTruth rightTruth))
  | _, _ => do return join (← leftSql) (← rightSql)

def textTest (kind : TextTest) (argument : Formula) (target : Except Fault String) :
    Except Fault String :=
  match argument with
  | .constant (.text text) => do return (← target) ++ " LIKE " ++ kind.pattern text
  | _ => .error .argumentNotText

def predicate : Formula → Except Fault String
  | .parameter name => .error (.parameterAsPredicate name)
  | .member _ name => .ok (name ++ " = 1")
  | .constant (.bool value) => .ok (truthSql value)
  | .constant value => .error (.constantAsPredicate value)
  | .binary .and left right =>
    connected (· && ·) (fun l r => left.conjunct l ++ " AND " ++ right.conjunct r) left right
      left.predicate right.predicate
  | .binary .or left right =>
    connected (· || ·) (fun l r => "(" ++ l ++ ") OR (" ++ r ++ ")") left right
      left.predicate right.predicate
  | .binary op left right =>
    comparison op left right (left.valueGiven left.predicate) (right.valueGiven right.predicate)
  | .not inner => do return "NOT (" ++ (← inner.predicate) ++ ")"
  | .test kind target argument => textTest kind argument (target.valueGiven target.predicate)

def value (formula : Formula) : Except Fault String :=
  formula.valueGiven formula.predicate

def column : Formula → Except Fault Column
  | .member _ name => .ok (.ofName name)
  | formula => do return .ofText (← formula.value)

end Formula

end PipeSql
