import PipeSql.Proofs.Json.Form
import PipeSql.Statement.Codec

set_option autoImplicit false

namespace PipeSql

open Json (Form Fits FitsAll record_written kinded_written list_written optional_written fits_option fits_list)

theorem Json.text_written (value : String) : Json.text value ≠ .null ∧ asText? (.text value) = some value :=
  ⟨by simp, rfl⟩

theorem Table.reads_back (table : Table) : Table.ofJson? table.toJson = some table := by
  have fields := record_written table.toJson ["name", "alias"]
    [.text table.name, Json.ofOption .text table.label] (by decide) rfl rfl
  have label := optional_written table.label Json.text_written
  rw [Table.ofJson?, fields]
  simp only [List.map_cons, List.map_nil, label]
  rfl

theorem Parameter.reads_back (parameter : Parameter) : Parameter.ofJson? parameter.toJson = some parameter := by
  have fields := record_written parameter.toJson ["name", "sql_type"]
    [.text parameter.name, .text parameter.sqlType] (by decide) rfl rfl
  rw [Parameter.ofJson?, fields]
  rfl

theorem SortDirection.reads_back (place : Json.Place) (direction : SortDirection) :
    SortDirection.decode? place direction.toJson = some direction := by
  cases direction <;> cases place <;> rfl

theorem OrderItem.reads_back (place : Json.Place) (item : OrderItem) :
    OrderItem.decode? place item.toJson = some item := by
  have fields := record_written item.toJson ["column", "direction"]
    [.text item.column, item.direction.toJson] (by decide) rfl rfl
  have direction := SortDirection.reads_back place item.direction
  rw [OrderItem.decode?, fields]
  simp only [List.map_cons, List.map_nil, Json.required?, Option.bind_some, direction]
  rfl

theorem Join.reads_back (join : Join) : Join.ofJson? join.toJson = some join := by
  have fields := record_written join.toJson ["left_table", "right_table", "condition", "join_type"]
    [.text join.left, .text join.right, Json.ofOption .text join.condition, .text join.joinType] (by decide) rfl rfl
  have condition := optional_written join.condition Json.text_written
  rw [Join.ofJson?, fields]
  simp only [List.map_cons, List.map_nil, condition]
  rfl

theorem Join.graph_reads_back (joins : List Join) : Join.graphOfJson? (Join.graphToJson joins) = some joins := by
  have fields := record_written (Join.graphToJson joins) ["relationships"] [.list (joins.map Join.toJson)]
    (by decide) rfl rfl
  rw [Join.graphOfJson?, fields]
  exact list_written joins fun join _ => join.reads_back

theorem UnionQuery.reads_back (union : UnionQuery) : UnionQuery.ofJson? union.toJson = some union := by
  have fields := record_written union.toJson ["query", "is_union_all"] [.text union.query, .bool union.all]
    (by decide) rfl rfl
  rw [UnionQuery.ofJson?, fields]
  rfl

theorem InsertTarget.reads_back (target : InsertTarget) : InsertTarget.ofJson? target.toJson = some target := by
  have fields := record_written target.toJson ["table", "columns"]
    [.text target.table, .list (target.columns.map .text)] (by decide) rfl rfl
  have columns := list_written target.columns fun name _ => (Json.text_written name).2
  rw [InsertTarget.ofJson?, fields]
  simp only [List.map_cons, List.map_nil, Json.required?, Option.bind_some, columns]
  rfl

theorem Comparison.reads_back (operator : Comparison) : Comparison.ofJson? operator.toJson = some operator := by
  cases operator <;> rfl

theorem Connective.reads_back (connective : Connective) : Connective.ofJson? connective.toJson = some connective := by
  cases connective <;> rfl

theorem Column.to_jsons_map (columns : List Column) : Column.toJsons columns = columns.map Column.toJson := by
  induction columns with
  | nil => rfl
  | cons column rest ih => rw [Column.toJsons, ih, List.map_cons]

namespace Condition

def toJson : Condition Column → Json
  | .comparison left operator right =>
    .object [("kind", .text "comparison"), ("left", left.toJson), ("operator", operator.toJson), ("right", .text right)]
  | .connective word => .object [("kind", .text "logical"), ("operator", word.toJson)]
  | .opening => .object [("kind", .text "parenthesis"), ("is_opening", .bool true)]
  | .closing => .object [("kind", .text "parenthesis"), ("is_opening", .bool false)]
  | .expression text => .object [("kind", .text "expression"), ("text", .text text)]

theorem to_jsons_map (conditions : List (Condition Column)) : toJsons conditions = conditions.map toJson := by
  induction conditions with
  | nil => rfl
  | cons condition rest ih => cases condition <;> rw [toJsons, ih] <;> rfl

def left? : Condition Column → Option Column
  | .comparison left _ _ => some left
  | .connective _ | .opening | .closing | .expression _ => none

theorem reads_back (place : Json.Place) {column? : Json → Option Column} (condition : Condition Column)
    (read : ∀ left ∈ condition.left?, column? left.toJson = some left) :
    decode? place column? condition.toJson = some condition := by
  cases condition with
  | comparison left operator right =>
    obtain ⟨content, kind, fields⟩ := kinded_written (toJson (.comparison left operator right)) kinds place "comparison"
      ["left", "operator", "right"] [left.toJson, operator.toJson, .text right] (by decide) (by decide) rfl rfl
    rw [decode?, kind]
    simp only [Option.bind_eq_bind, Option.bind_some, fields, List.map_cons, List.map_nil, Json.required?,
      read left rfl, operator.reads_back]
    rfl
  | connective word =>
    obtain ⟨content, kind, fields⟩ := kinded_written (toJson (.connective word)) kinds place "logical" ["operator"]
      [word.toJson] (by decide) (by decide) rfl rfl
    rw [decode?, kind]
    simp only [Option.bind_eq_bind, Option.bind_some, fields, List.map_cons, List.map_nil, Json.required?,
      word.reads_back]
    rfl
  | opening | closing => cases place <;> rfl
  | expression text => cases place <;> rfl

end Condition

namespace Statement

-- The columns in the columns, groups and comparisons of a statement.
def parts (statement : Select Column) : List Column :=
  statement.columns ++ statement.groupBy ++ statement.conditions.filterMap Condition.left?

def values (statement : Select Column) : List Json :=
  [.list (statement.columns.map Column.toJson), .list (statement.tables.map Table.toJson),
    .list (statement.parameters.map Parameter.toJson), Join.graphToJson statement.joins,
    .list (statement.conditions.map Condition.toJson), .list (statement.groupBy.map Column.toJson),
    .list (statement.orderBy.map OrderItem.toJson), Json.ofOption .text statement.having,
    Json.ofOption .text statement.limit, Json.ofOption .text statement.offset, .bool statement.distinct,
    .list (statement.unions.map UnionQuery.toJson), Json.ofOption InsertTarget.toJson statement.insert]

theorem to_json_eq (statement : Select Column) : toJson statement = .object (components.zip (values statement)) := by
  cases statement
  rw [toJson, Column.to_jsons_map, Column.to_jsons_map, Condition.to_jsons_map]
  rfl

theorem reads_back (place : Json.Place) {column? left? : Json → Option Column} (statement : Select Column)
    (columns : ∀ column ∈ statement.columns ++ statement.groupBy, column? column.toJson = some column)
    (lefts : ∀ column ∈ statement.conditions.filterMap Condition.left?, left? column.toJson = some column) :
    decode? place column? left? (toJson statement) = some statement := by
  have fields := record_written (toJson statement) components (values statement) (by decide) rfl (to_json_eq statement)
  have selected := list_written statement.columns fun column member => columns column (List.mem_append_left _ member)
  have tables := list_written statement.tables fun table _ => table.reads_back
  have parameters := list_written statement.parameters fun parameter _ => parameter.reads_back
  have joins := Join.graph_reads_back statement.joins
  have conditions := list_written statement.conditions fun condition member =>
    condition.reads_back place fun left compared => lefts left (List.mem_filterMap.2 ⟨condition, member, compared⟩)
  have groups := list_written statement.groupBy fun column member => columns column (List.mem_append_right _ member)
  have keys := list_written statement.orderBy fun item _ => item.reads_back place
  have having := optional_written statement.having Json.text_written
  have limit := optional_written statement.limit Json.text_written
  have offset := optional_written statement.offset Json.text_written
  have unions := list_written statement.unions fun union _ => union.reads_back
  have insert := optional_written statement.insert fun target => ⟨by simp [InsertTarget.toJson], target.reads_back⟩
  rw [decode?, fields]
  simp only [values, List.map_cons, List.map_nil, Json.required?, Option.bind_some, selected, tables, parameters, joins,
    conditions, groups, keys, having, limit, offset, unions, insert]
  rfl

theorem part_depth {statement : Select Column} {column : Column} (member : column ∈ parts statement) :
    column.toJson.depth < (toJson statement).depth := by
  have listed : ∀ name (items : List Json), (name, Json.list items) ∈ components.zip (values statement) →
      ∀ item ∈ items, item.depth < (toJson statement).depth := by
    intro name items field item present
    rw [to_json_eq]
    exact Nat.lt_trans (Json.item_depth present) (Json.field_depth field)
  simp only [parts, List.mem_append, List.mem_filterMap] at member
  rcases member with (member | member) | ⟨condition, present, compared⟩
  · exact listed "select_list" _ (.head _) _ (List.mem_map_of_mem member)
  · exact listed "group_by_columns" _ (by simp [components, values]) _ (List.mem_map_of_mem member)
  · have within : column.toJson.depth < condition.toJson.depth := by
      cases condition with
      | comparison left operator right =>
        cases compared
        exact Json.field_depth (.tail _ (.head _))
      | connective | opening | closing | expression => cases compared
    exact Nat.lt_trans within
      (listed "where_conditions" _ (by simp [components, values]) _ (List.mem_map_of_mem present))

end Statement

namespace Column

def parts : Column → List Column
  | .subQuery query _ => Statement.parts query
  | .named .. | .expression .. | .wildcard _ => []

theorem query_depth (query : Select Column) (label : Option String) :
    (Statement.toJson query).depth < (toJson (.subQuery query label)).depth := by
  rw [toJson]
  exact Json.field_depth (.tail _ (.head _))

theorem parts_induction (motive : Column → Prop)
    (step : ∀ column : Column, (∀ part ∈ column.parts, motive part) → motive column) (column : Column) :
    motive column := by
  generalize bound : column.toJson.depth = size
  induction size using Nat.strongRecOn generalizing column with
  | ind size ih =>
    refine step column fun part member => ih part.toJson.depth ?_ part rfl
    cases column with
    | subQuery query label =>
      rw [← bound]
      exact Nat.lt_trans (Statement.part_depth member) (query_depth query label)
    | named | expression | wildcard => cases member

theorem to_json_depth (column : Column) : 0 < column.toJson.depth := by
  cases column with
  | named | expression | wildcard | subQuery =>
    rw [toJson]
    exact Nat.succ_pos _

theorem reads_back (column : Column) : ∀ place depth, column.toJson.depth ≤ depth →
    decode? place depth column.toJson = some column := by
  induction column using parts_induction with
  | step column ih =>
    intro place depth enough
    obtain ⟨depth, rfl⟩ := Nat.exists_eq_add_one.2 (Nat.lt_of_lt_of_le column.to_json_depth enough)
    cases column with
    | named name table label =>
      obtain ⟨content, kind, fields⟩ := kinded_written (toJson (.named name table label)) kinds place "named"
        ["name", "table", "alias"] [.text name, Json.ofOption .text table, Json.ofOption .text label]
        (by decide) (by decide) rfl (by rw [toJson]; rfl)
      rw [decode?, kind]
      simp only [Option.bind_eq_bind, Option.bind_some, fields, List.map_cons, List.map_nil, Json.required?,
        Json.asText?, optional_written table Json.text_written, optional_written label Json.text_written]
      rfl
    | expression text label =>
      obtain ⟨content, kind, fields⟩ := kinded_written (toJson (.expression text label)) kinds place "expression"
        ["expression", "alias"] [.text text, Json.ofOption .text label] (by decide) (by decide) rfl
        (by rw [toJson]; rfl)
      rw [decode?, kind]
      simp only [Option.bind_eq_bind, Option.bind_some, fields, List.map_cons, List.map_nil, Json.required?,
        Json.asText?, optional_written label Json.text_written]
      rfl
    | wildcard table =>
      obtain ⟨content, kind, fields⟩ := kinded_written (toJson (.wildcard table)) kinds place "wildcard" ["table"]
        [Json.ofOption .text table] (by decide) (by decide) rfl (by rw [toJson]; rfl)
      rw [decode?, kind]
      simp only [Option.bind_eq_bind, Option.bind_some, fields, List.map_cons, List.map_nil,
        optional_written table Json.text_written]
      rfl
    | subQuery query label =>
      obtain ⟨content, kind, fields⟩ := kinded_written (toJson (.subQuery query label)) kinds place "sub_query"
        ["query", "alias"] [Statement.toJson query, Json.ofOption .text label] (by decide) (by decide) rfl
        (by rw [toJson]; rfl)
      -- What stands in the statement nests less deeply than the column does.
      have inner : ∀ part ∈ Statement.parts query, decode? .within depth part.toJson = some part := by
        intro part member
        have shallower := Nat.lt_trans (Statement.part_depth member) (query_depth query label)
        exact ih part member .within depth (by omega)
      have read := Statement.reads_back .within query
        (fun part member => inner part (List.mem_append_left _ member))
        (fun part member => inner part (List.mem_append_right _ member))
      rw [decode?, kind]
      simp only [Option.bind_eq_bind, Option.bind_some, fields, List.map_cons, List.map_nil, Json.required?, read,
        optional_written label Json.text_written]
      rfl

end Column

namespace Statement

inductive Part where
  | column | statement

def optionalText : Form Part :=
  .nullable .text

def conditionForm : Form Part :=
  .kinded [
    ("comparison", [("left", .reference .column), ("operator", .choice ["Eq", "NotEq", "GreaterThan", "LessThan",
      "GreaterOrEq", "LessOrEq", "Like", "In", "IsNull", "IsNotNull"]), ("right", .text)]),
    ("logical", [("operator", .choice ["And", "Or"])]),
    ("parenthesis", [("is_opening", .bool)]),
    ("expression", [("text", .text)])]

def form : Part → Form Part
  | .column => .kinded [
      ("named", [("name", .text), ("table", optionalText), ("alias", optionalText)]),
      ("expression", [("expression", .text), ("alias", optionalText)]),
      ("wildcard", [("table", optionalText)]),
      ("sub_query", [("query", .reference .statement), ("alias", optionalText)])]
  | .statement => .record [
      ("select_list", .list (.reference .column)),
      ("tables", .list (.record [("name", .text), ("alias", optionalText)])),
      ("parameters", .list (.record [("name", .text), ("sql_type", .text)])),
      ("join_graph", .record [("relationships", .list (.record [("left_table", .text), ("right_table", .text),
        ("condition", optionalText), ("join_type", .text)]))]),
      ("where_conditions", .list conditionForm),
      ("group_by_columns", .list (.reference .column)),
      ("order_by_items", .list (.record [("column", .text), ("direction", .choice ["Asc", "Desc"])])),
      ("having_condition", optionalText),
      ("limit", optionalText),
      ("offset", optionalText),
      ("is_distinct", .bool),
      ("unions", .list (.record [("query", .text), ("is_union_all", .bool)])),
      ("insert_target", .nullable (.record [("table", .text), ("columns", .list .text)]))]

theorem fits_text (value : Option String) : Fits form optionalText (Json.ofOption .text value) :=
  fits_option .text value

theorem fits_comparison (operator : Comparison) : Fits form (.choice ["Eq", "NotEq", "GreaterThan", "LessThan",
    "GreaterOrEq", "LessOrEq", "Like", "In", "IsNull", "IsNotNull"]) operator.toJson := by
  cases operator <;> exact .choice (by decide)

theorem fits_condition (condition : Condition Column)
    (left : ∀ column ∈ condition.left?, Fits form (.reference .column) column.toJson) :
    Fits form conditionForm condition.toJson := by
  cases condition with
  | comparison column operator right =>
    exact .kinded (.head _) (.cons (left column rfl) (.cons (fits_comparison operator) (.cons (.text right) .nil)))
  | connective word =>
    have known : Fits form (.choice ["And", "Or"]) word.toJson := by
      cases word <;> exact .choice (by decide)
    exact .kinded (.tail _ (.head _)) (.cons known .nil)
  | opening => exact .kinded (.tail _ (.tail _ (.head _))) (.cons (.bool true) .nil)
  | closing => exact .kinded (.tail _ (.tail _ (.head _))) (.cons (.bool false) .nil)
  | expression text => exact .kinded (.tail _ (.tail _ (.tail _ (.head _)))) (.cons (.text text) .nil)

theorem fits_form (statement : Select Column)
    (inner : ∀ part ∈ parts statement, Fits form (.reference .column) part.toJson) :
    Fits form (.reference .statement) (toJson statement) := by
  have columns := fits_list fun column (member : column ∈ statement.columns) =>
    inner column (List.mem_append_left _ (List.mem_append_left _ member))
  have groups := fits_list fun column (member : column ∈ statement.groupBy) =>
    inner column (List.mem_append_left _ (List.mem_append_right _ member))
  have conditions := fits_list fun condition (member : condition ∈ statement.conditions) =>
    fits_condition condition fun left compared =>
      inner left (List.mem_append_right _ (List.mem_filterMap.2 ⟨condition, member, compared⟩))
  have direction : ∀ direction : SortDirection, Fits form (.choice ["Asc", "Desc"]) direction.toJson := by
    intro direction
    cases direction <;> exact .choice (by decide)
  rw [to_json_eq]
  refine .reference (.record ?_)
  refine .cons columns (.cons (fits_list fun table _ => ?_) (.cons (fits_list fun parameter _ => ?_) ?_))
  · exact .record (.cons (.text table.name) (.cons (fits_text table.label) .nil))
  · exact .record (.cons (.text parameter.name) (.cons (.text parameter.sqlType) .nil))
  refine .cons (.record (.cons (fits_list fun join _ => ?_) .nil)) (.cons conditions (.cons groups ?_))
  · exact .record (.cons (.text join.left) (.cons (.text join.right) (.cons (fits_text join.condition)
      (.cons (.text join.joinType) .nil))))
  refine .cons (fits_list fun item _ => ?_) (.cons (fits_text statement.having) (.cons (fits_text statement.limit)
    (.cons (fits_text statement.offset) (.cons (.bool statement.distinct) (.cons (fits_list fun union _ => ?_)
      (.cons (fits_option (fun target => ?_) statement.insert) .nil))))))
  · exact .record (.cons (.text item.column) (.cons (direction item.direction) .nil))
  · exact .record (.cons (.text union.query) (.cons (.bool union.all) .nil))
  · exact .record (.cons (.text target.table) (.cons (fits_list fun name _ => .text name) .nil))

end Statement

theorem Column.fits_form (column : Column) : Fits Statement.form (.reference .column) column.toJson := by
  induction column using Column.parts_induction with
  | step column ih =>
    apply Fits.reference
    cases column with
    | named name table label =>
      rw [toJson]
      exact .kinded (.head _)
        (.cons (.text name) (.cons (Statement.fits_text table) (.cons (Statement.fits_text label) .nil)))
    | expression text label =>
      rw [toJson]
      exact .kinded (.tail _ (.head _)) (.cons (.text text) (.cons (Statement.fits_text label) .nil))
    | wildcard table =>
      rw [toJson]
      exact .kinded (.tail _ (.tail _ (.head _))) (.cons (Statement.fits_text table) .nil)
    | subQuery query label =>
      rw [toJson]
      exact .kinded (.tail _ (.tail _ (.tail _ (.head _))))
        (.cons (Statement.fits_form query ih) (.cons (Statement.fits_text label) .nil))

theorem statement_form_reads_back (statement : Statement) :
    Fits Statement.form (.reference .statement) (Statement.toJson statement) ∧
      Statement.ofJson? (Statement.toJson statement) = some statement := by
  constructor
  · exact Statement.fits_form statement fun column _ => column.fits_form
  · exact Statement.reads_back .outside statement (fun column _ => column.reads_back .outside _ (Nat.le_refl _))
      (fun column _ => column.reads_back .within _ (Nat.le_refl _))

end PipeSql
