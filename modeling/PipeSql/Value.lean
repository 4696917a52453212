import PipeSql.Moment
import PipeSql.Number.Layout
import PipeSql.Text
import PipeSql.Text.Unprintable

set_option autoImplicit false

namespace PipeSql

inductive Value where
  | text (value : String)
  | bool (value : Bool)
  | moment (value : Moment)
  | int (value : Int)
  | float (value : Binary64)
  | null
deriving DecidableEq, Repr

namespace Value

def literal : Value → String
  | .text value => Text.sqlLiteral value
  | .bool true => "1"
  | .bool false => "0"
  | .moment value => value.sql
  | .int value => toString value
  | .float value => value.plain
  | .null => "NULL"

def describe : Value → String
  | .text value => "String(" ++ Text.quoted value ++ ")"
  | .bool value => "Bool(" ++ toString value ++ ")"
  | .moment value => "DateTime(" ++ value.toText ++ ")"
  | .int value => "Int(" ++ toString value ++ ")"
  | .float value => "Float(" ++ value.describe ++ ")"
  | .null => "Null"

def same : Value → Value → Bool
  | .float left, .float right => left.same right
  | left, right => left == right

end Value

end PipeSql
