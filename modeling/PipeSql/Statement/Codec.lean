import PipeSql.Json
import PipeSql.Statement

set_option autoImplicit false

namespace PipeSql

open Json (record? required? optional? listOf? asText? asBool?)

def Table.toJson (table : Table) : Json :=
  .object [("name", .text table.name), ("alias", Json.ofOption .text table.label)]

def Table.ofJson? (json : Json) : Option Table :=
  match record? ["name", "alias"] json with
  | some [name, label] => do return ⟨← required? asText? name, ← optional? asText? label⟩
  | _ => none

def Parameter.toJson (parameter : Parameter) : Json :=
  .object [("name", .text parameter.name), ("sql_type", .text parameter.sqlType)]

def Parameter.ofJson? (json : Json) : Option Parameter :=
  match record? ["name", "sql_type"] json with
  | some [name, sqlType] => do return ⟨← required? asText? name, ← required? asText? sqlType⟩
  | _ => none

def SortDirection.toJson : SortDirection → Json
  | .asc => .text "Asc"
  | .desc => .text "Desc"

def SortDirection.decode? (place : Json.Place) (json : Json) : Option SortDirection :=
  match json.choice? place with
  | some "Asc" => some .asc
  | some "Desc" => some .desc
  | _ => none

def OrderItem.toJson (item : OrderItem) : Json :=
  .object [("column", .text item.column), ("direction", item.direction.toJson)]

def OrderItem.decode? (place : Json.Place) (json : Json) : Option OrderItem :=
  match record? ["column", "direction"] json with
  | some [column, direction] => do
    return ⟨← required? asText? column, ← required? (SortDirection.decode? place) direction⟩
  | _ => none

def OrderItem.ofJson? (json : Json) : Option OrderItem :=
  OrderItem.decode? .outside json

def Join.toJson (join : Join) : Json :=
  .object [("left_table", .text join.left), ("right_table", .text join.right),
    ("condition", Json.ofOption .text join.condition), ("join_type", .text join.joinType)]

def Join.ofJson? (json : Json) : Option Join :=
  match record? ["left_table", "right_table", "condition", "join_type"] json with
  | some [left, right, condition, joinType] => do
    return ⟨← required? asText? left, ← required? asText? right, ← optional? asText? condition,
      ← required? asText? joinType⟩
  | _ => none

def Join.graphToJson (joins : List Join) : Json :=
  .object [("relationships", .list (joins.map Join.toJson))]

def Join.graphOfJson? (json : Json) : Option (List Join) :=
  match record? ["relationships"] json with
  | some [relationships] => required? (listOf? Join.ofJson?) relationships
  | _ => none

def UnionQuery.toJson (union : UnionQuery) : Json :=
  .object [("query", .text union.query), ("is_union_all", .bool union.all)]

def UnionQuery.ofJson? (json : Json) : Option UnionQuery :=
  match record? ["query", "is_union_all"] json with
  | some [query, all] => do return ⟨← required? asText? query, ← required? asBool? all⟩
  | _ => none

def InsertTarget.toJson (target : InsertTarget) : Json :=
  .object [("table", .text target.table), ("columns", .list (target.columns.map .text))]

def InsertTarget.ofJson? (json : Json) : Option InsertTarget :=
  match record? ["table", "columns"] json with
  | some [table, columns] => do
    return ⟨← required? asText? table, ← required? (listOf? asText?) columns⟩
  | _ => none

def Comparison.toJson : Comparison → Json
  | .eq => .text "Eq"
  | .notEq => .text "NotEq"
  | .greaterThan => .text "GreaterThan"
  | .lessThan => .text "LessThan"
  | .greaterOrEq => .text "GreaterOrEq"
  | .lessOrEq => .text "LessOrEq"
  | .like => .text "Like"
  | .in => .text "In"
  | .isNull => .text "IsNull"
  | .isNotNull => .text "IsNotNull"

def Comparison.ofJson? (json : Json) : Option Comparison :=
  match json.choice? .within with
  | some "Eq" => some .eq
  | some "NotEq" => some .notEq
  | some "GreaterThan" => some .greaterThan
  | some "LessThan" => some .lessThan
  | some "GreaterOrEq" => some .greaterOrEq
  | some "LessOrEq" => some .lessOrEq
  | some "Like" => some .like
  | some "In" => some .in
  | some "IsNull" => some .isNull
  | some "IsNotNull" => some .isNotNull
  | _ => none

def Connective.toJson : Connective → Json
  | .and => .text "And"
  | .or => .text "Or"

def Connective.ofJson? (json : Json) : Option Connective :=
  match json.choice? .within with
  | some "And" => some .and
  | some "Or" => some .or
  | _ => none

def Statement.components : List String :=
  ["select_list", "tables", "parameters", "join_graph", "where_conditions", "group_by_columns",
    "order_by_items", "having_condition", "limit", "offset", "is_distinct", "unions",
    "insert_target"]

mutual

def Column.toJson : Column → Json
  | .named name table label =>
    .object [("kind", .text "named"), ("name", .text name), ("table", Json.ofOption .text table),
      ("alias", Json.ofOption .text label)]
  | .expression text label =>
    .object [("kind", .text "expression"), ("expression", .text text),
      ("alias", Json.ofOption .text label)]
  | .wildcard table => .object [("kind", .text "wildcard"), ("table", Json.ofOption .text table)]
  | .subQuery query label =>
    .object [("kind", .text "sub_query"), ("query", Statement.toJson query),
      ("alias", Json.ofOption .text label)]

def Statement.toJson : Select Column → Json
  | ⟨columns, tables, parameters, joins, conditions, groupBy, orderBy, having, limit, offset,
      distinct, unions, insert⟩ =>
    .object [("select_list", .list (Column.toJsons columns)),
      ("tables", .list (tables.map Table.toJson)),
      ("parameters", .list (parameters.map Parameter.toJson)),
      ("join_graph", Join.graphToJson joins),
      ("where_conditions", .list (Condition.toJsons conditions)),
      ("group_by_columns", .list (Column.toJsons groupBy)),
      ("order_by_items", .list (orderBy.map OrderItem.toJson)),
      ("having_condition", Json.ofOption .text having),
      ("limit", Json.ofOption .text limit),
      ("offset", Json.ofOption .text offset),
      ("is_distinct", .bool distinct),
      ("unions", .list (unions.map UnionQuery.toJson)),
      ("insert_target", Json.ofOption InsertTarget.toJson insert)]

def Column.toJsons : List Column → List Json
  | [] => []
  | column :: rest => column.toJson :: Column.toJsons rest

def Condition.toJsons : List (Condition Column) → List Json
  | [] => []
  | .comparison left operator right :: rest =>
    .object [("kind", .text "comparison"), ("left", left.toJson), ("operator", operator.toJson),
      ("right", .text right)] :: Condition.toJsons rest
  | .connective connective :: rest =>
    .object [("kind", .text "logical"), ("operator", connective.toJson)] :: Condition.toJsons rest
  | .opening :: rest =>
    .object [("kind", .text "parenthesis"), ("is_opening", .bool true)] :: Condition.toJsons rest
  | .closing :: rest =>
    .object [("kind", .text "parenthesis"), ("is_opening", .bool false)] :: Condition.toJsons rest
  | .expression text :: rest =>
    .object [("kind", .text "expression"), ("text", .text text)] :: Condition.toJsons rest

end

def Column.kinds : List String :=
  ["named", "expression", "wildcard", "sub_query"]

def Condition.kinds : List String :=
  ["comparison", "logical", "parenthesis", "expression"]

def Condition.decode? (place : Json.Place) (column? : Json → Option Column) (json : Json) :
    Option (Condition Column) := do
  let (kind, content) ← json.kinded? Condition.kinds place
  match kind with
  | "comparison" =>
    match record? ["left", "operator", "right"] content with
    | some [left, operator, right] =>
      return .comparison (← required? column? left) (← required? Comparison.ofJson? operator)
        (← required? asText? right)
    | _ => none
  | "logical" =>
    match record? ["operator"] content with
    | some [operator] => return .connective (← required? Connective.ofJson? operator)
    | _ => none
  | "parenthesis" =>
    match record? ["is_opening"] content with
    | some [isOpening] =>
      return if ← required? asBool? isOpening then .opening else .closing
    | _ => none
  | "expression" =>
    match record? ["text"] content with
    | some [text] => return .expression (← required? asText? text)
    | _ => none
  | _ => none

def Statement.decode? (place : Json.Place) (column? left? : Json → Option Column) (json : Json) :
    Option Statement :=
  match record? Statement.components json with
  | some [columns, tables, parameters, joins, conditions, groupBy, orderBy, having, limit, offset,
      distinct, unions, insert] => do
    return {
      columns := ← required? (listOf? column?) columns
      tables := ← required? (listOf? Table.ofJson?) tables
      parameters := ← required? (listOf? Parameter.ofJson?) parameters
      joins := ← required? Join.graphOfJson? joins
      conditions := ← required? (listOf? (Condition.decode? place left?)) conditions
      groupBy := ← required? (listOf? column?) groupBy
      orderBy := ← required? (listOf? (OrderItem.decode? place)) orderBy
      having := ← optional? asText? having
      limit := ← optional? asText? limit
      offset := ← optional? asText? offset
      distinct := ← required? asBool? distinct
      unions := ← required? (listOf? UnionQuery.ofJson?) unions
      insert := ← optional? InsertTarget.ofJson? insert }
  | _ => none

def Column.decode? : Json.Place → Nat → Json → Option Column
  | _, 0, _ => none
  | place, depth + 1, json => do
    let (kind, content) ← json.kinded? Column.kinds place
    match kind with
    | "named" =>
      match record? ["name", "table", "alias"] content with
      | some [name, table, label] =>
        return .named (← required? asText? name) (← optional? asText? table)
          (← optional? asText? label)
      | _ => none
    | "expression" =>
      match record? ["expression", "alias"] content with
      | some [text, label] =>
        return .expression (← required? asText? text) (← optional? asText? label)
      | _ => none
    | "wildcard" =>
      match record? ["table"] content with
      | some [table] => return .wildcard (← optional? asText? table)
      | _ => none
    | "sub_query" =>
      match record? ["query", "alias"] content with
      | some [query, label] =>
        let column? := Column.decode? .within depth
        return .subQuery (← required? (Statement.decode? .within column? column?) query)
          (← optional? asText? label)
      | _ => none
    | _ => none

def Column.ofJson? (json : Json) : Option Column :=
  Column.decode? .outside json.depth json

def Column.leftOfJson? (json : Json) : Option Column :=
  Column.decode? .within json.depth json

def Condition.ofJson? (json : Json) : Option (Condition Column) :=
  Condition.decode? .outside Column.leftOfJson? json

def Statement.ofJson? (json : Json) : Option Statement :=
  Statement.decode? .outside Column.ofJson? Column.leftOfJson? json

end PipeSql
