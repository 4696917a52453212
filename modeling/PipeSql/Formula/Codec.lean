import PipeSql.Formula
import PipeSql.Json
import PipeSql.Number.Nearest

set_option autoImplicit false

namespace PipeSql

open Json (components? required? asText? asBool?)

def Json.asInt64? (json : Json) : Option Int :=
  json.asInt?.filter fun value =>
    decide (-0x8000000000000000 ≤ value) && decide (value < 0x8000000000000000)

def Json.asNat64? (json : Json) : Option Nat :=
  match json.asInt? with
  | some (.ofNat value) => if value < 0x10000000000000000 then some value else none
  | _ => none

def Json.asBinary64? : Json → Option Binary64
  | .number value => some (.nearest value.negative value.digits value.exponent)
  | _ => none

def Moment.ofJson? (json : Json) : Option Moment :=
  json.asText?.bind Moment.ofText?

def Value.ofJson? (json : Json) : Option Value :=
  if json.choice? .outside = some "Null" then some .null
  else
    match json.choiceWith? with
    | some ("String", content) => content.asText?.map .text
    | some ("Bool", content) => content.asBool?.map .bool
    | some ("DateTime", content) => (Moment.ofJson? content).map .moment
    | some ("Int", content) => content.asInt64?.map .int
    | some ("Float", content) => content.asBinary64?.map .float
    | _ => none

def BinaryOp.ofJson? (json : Json) : Option BinaryOp :=
  (json.choice? .outside).bind BinaryOp.ofName?

def TextTest.ofJson? (json : Json) : Option TextTest :=
  (json.choice? .outside).bind TextTest.ofName?

namespace Formula

def ofJsonWithin? : Nat → Json → Option Formula
  | 0, _ => none
  | bound + 1, json =>
    match json.choiceWith? with
    | some ("Parameter", content) => content.asText?.map .parameter
    | some ("Member", content) =>
      match components? ["target", "name"] content with
      | some [target, name] => do
        return .member (← required? (ofJsonWithin? bound) target) (← required? asText? name)
      | _ => none
    | some ("Constant", content) => (Value.ofJson? content).map .constant
    | some ("Binary", content) =>
      match components? ["op", "left", "right"] content with
      | some [op, left, right] => do
        return .binary (← required? BinaryOp.ofJson? op) (← required? (ofJsonWithin? bound) left)
          (← required? (ofJsonWithin? bound) right)
      | _ => none
    | some ("Not", content) => (ofJsonWithin? bound content).map .not
    | some ("Call", content) =>
      match components? ["method", "target", "argument"] content with
      | some [kind, target, argument] => do
        return .test (← required? TextTest.ofJson? kind) (← required? (ofJsonWithin? bound) target)
          (← required? (ofJsonWithin? bound) argument)
      | _ => none
    | _ => none

def ofJson? (json : Json) : Option Formula :=
  ofJsonWithin? (json.depth + 1) json

end Formula

end PipeSql
