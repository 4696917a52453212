import PipeSql.Value

set_option autoImplicit false

namespace PipeSql

inductive BinaryOp where
  | equal
  | notEqual
  | less
  | lessOrEqual
  | greater
  | greaterOrEqual
  | and
  | or
deriving DecidableEq, Repr

namespace BinaryOp

def sql : BinaryOp → String
  | .equal => "="
  | .notEqual => "<>"
  | .less => "<"
  | .lessOrEqual => "<="
  | .greater => ">"
  | .greaterOrEqual => ">="
  | .and => "AND"
  | .or => "OR"

def name : BinaryOp → String
  | .equal => "Equal"
  | .notEqual => "NotEqual"
  | .less => "LessThan"
  | .lessOrEqual => "LessThanOrEqual"
  | .greater => "GreaterThan"
  | .greaterOrEqual => "GreaterThanOrEqual"
  | .and => "AndAlso"
  | .or => "OrElse"

def all : List BinaryOp :=
  [.equal, .notEqual, .less, .lessOrEqual, .greater, .greaterOrEqual, .and, .or]

def ofName? (name : String) : Option BinaryOp :=
  all.find? fun op => op.name = name

end BinaryOp

inductive TextTest where
  | contains
  | startsWith
deriving DecidableEq, Repr

namespace TextTest

def name : TextTest → String
  | .contains => "Contains"
  | .startsWith => "StartsWith"

def ofName? : String → Option TextTest
  | "Contains" => some .contains
  | "StartsWith" => some .startsWith
  | _ => none

def pattern (test : TextTest) (text : String) : String :=
  match test with
  | .contains => "'%" ++ Text.escapeLiteral text ++ "%'"
  | .startsWith => "'" ++ Text.escapeLiteral text ++ "%'"

end TextTest

inductive Formula where
  | parameter (name : String)
  | member (target : Formula) (name : String)
  | constant (value : Value)
  | binary (op : BinaryOp) (left right : Formula)
  | not (inner : Formula)
  | test (kind : TextTest) (target argument : Formula)
deriving DecidableEq, Repr

namespace Formula

def against (op : BinaryOp) (formula : Formula) (value : Value) : Formula :=
  .binary op formula (.constant value)

def testAgainst (kind : TextTest) (formula : Formula) (value : Value) : Formula :=
  .test kind formula (.constant value)

def rebind (source target : String) : Formula → Formula
  | .parameter name => .parameter (if name = source then target else name)
  | .member row name => .member (rebind source target row) name
  | .constant value => .constant value
  | .binary op left right => .binary op (rebind source target left) (rebind source target right)
  | .not inner => .not (rebind source target inner)
  | .test kind subject argument =>
    .test kind (rebind source target subject) (rebind source target argument)

def truth? : Formula → Option Bool
  | .constant (.bool value) => some value
  | _ => none

def describe : Formula → String
  | .parameter name => "Parameter(" ++ Text.quoted name ++ ")"
  | .member target name =>
    "Member \x7b target: " ++ target.describe ++ ", name: " ++ Text.quoted name ++ " \x7d"
  | .constant value => "Constant(" ++ value.describe ++ ")"
  | .binary op left right =>
    "Binary \x7b op: " ++ op.name ++ ", left: " ++ left.describe ++ ", right: " ++
      right.describe ++ " \x7d"
  | .not inner => "Not(" ++ inner.describe ++ ")"
  | .test kind target argument =>
    "Call \x7b method: " ++ kind.name ++ ", target: " ++ target.describe ++ ", argument: " ++
      argument.describe ++ " \x7d"

def same : Formula → Formula → Bool
  | .parameter left, .parameter right => left == right
  | .member row name, .member otherRow otherName => same row otherRow && name == otherName
  | .constant left, .constant right => left.same right
  | .binary op left right, .binary otherOp otherLeft otherRight =>
    op == otherOp && same left otherLeft && same right otherRight
  | .not inner, .not otherInner => same inner otherInner
  | .test kind subject argument, .test otherKind otherSubject otherArgument =>
    kind == otherKind && same subject otherSubject && same argument otherArgument
  | _, _ => false

end Formula

end PipeSql
