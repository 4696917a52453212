import PipeSql.Dialect.Spelling
import PipeSql.Statement

set_option autoImplicit false

namespace PipeSql

def Table.sql (table : Table) : String :=
  match table.label with
  | some label => table.name ++ " " ++ label
  | none => table.name

def Join.keywords (joinType : String) : String :=
  let upper := Text.asciiUpper (Text.trim joinType)
  if upper = "" then "INNER JOIN"
  else if "JOIN".toList.isSuffixOf upper.toList then upper
  else upper ++ " JOIN"

def InsertTarget.knownColumns? (table : String) : Option (List String) :=
  match Text.asciiLower table with
  | "users" => some ["id", "name", "email"]
  | "customers" => some ["id", "name", "email"]
  | "orders" => some ["id", "user_id", "total", "status"]
  | "products" => some ["id", "name", "price"]
  | "employees" => some ["id", "name", "salary"]
  | _ => none

namespace Clause

def joinTokens : List String → String
  | [] => ""
  | [last] => last
  | first :: second :: rest =>
    first ++ (if first != "(" && second != ")" then " " else "") ++ joinTokens (second :: rest)

def unknownTable : String := "/*UNKNOWN_TABLE*/"

def unknownColumns : String := "/*UNKNOWN_COLUMNS*/"

def joined (dialect : Dialect) (joins : List Join) (table : Table) : String :=
  let join := Join.find? joins table.name
  let keywords := (join.map fun join => Join.keywords join.joinType).getD "INNER JOIN"
  let condition :=
    match join.bind (·.condition) with
    | some condition => " ON " ++ dialect.respell condition
    | none => ""
  " " ++ keywords ++ " " ++ table.sql ++ condition

def fromTables (dialect : Dialect) (joins : List Join) : List Table → String
  | [] => "FROM " ++ unknownTable
  | base :: rest => "FROM " ++ base.sql ++ Text.joinWith "" (rest.map (joined dialect joins))

def whereTokens (tokens : List String) : Option String :=
  if tokens.isEmpty then none else some ("WHERE " ++ joinTokens tokens)

def groupBy (columns : List String) : Option String :=
  if columns.isEmpty then none else some ("GROUP BY " ++ Text.joinWith ", " columns)

def having (dialect : Dialect) (condition : Option String) : Option String :=
  condition.map fun condition => "HAVING " ++ dialect.respell condition

def unions (queries : List UnionQuery) : Option String :=
  if queries.isEmpty then none
  else some (Text.joinWith " " (queries.map fun query =>
    (if query.all then "UNION ALL " else "UNION ") ++ query.query))

-- SQL Server has an offset only behind an order, so an arbitrary one is given.
def orderBy (dialect : Dialect) (items : List OrderItem) (offset : Option String) :
    Option String :=
  if items.isEmpty then
    match dialect, offset with
    | .sqlserver, some _ => some "ORDER BY (SELECT NULL)"
    | _, _ => none
  else some ("ORDER BY " ++ Text.joinWith ", " (items.map fun item =>
    dialect.respell item.column ++ " " ++ item.direction.sql))

def limit (dialect : Dialect) (limit offset : Option String) : Option String :=
  match dialect, limit, offset with
  | _, none, none => none
  | .sqlserver, _, none => none
  | .sqlserver, none, some offset => some ("OFFSET " ++ offset ++ " ROWS")
  | .sqlserver, some limit, some offset =>
    some ("OFFSET " ++ offset ++ " ROWS FETCH NEXT " ++ limit ++ " ROWS ONLY")
  | _, some limit, none => some ("LIMIT " ++ limit)
  | .sqlite, none, some offset => some ("LIMIT -1 OFFSET " ++ offset)
  | .postgresql, none, some offset => some ("OFFSET " ++ offset)
  | _, some limit, some offset => some ("LIMIT " ++ limit ++ " OFFSET " ++ offset)

def top (dialect : Dialect) (limit offset : Option String) : String :=
  match dialect, limit, offset with
  | .sqlserver, some limit, none =>
    if limit.toList.all Char.isDigit then "TOP " ++ limit ++ " " else "TOP (" ++ limit ++ ") "
  | _, _, _ => ""

def select (dialect : Dialect) (distinct : Bool) (limit offset : Option String)
    (columns : List String) : String :=
  "SELECT " ++ (if distinct then "DISTINCT " else "") ++ top dialect limit offset ++
    (if columns.isEmpty then "*" else Text.joinWith ", " columns)

def projectedNames? (names : List (Option String)) : Option (List String) :=
  if names.isEmpty then none else names.mapM id

def insertColumns (guess : Bool) (target : InsertTarget) (names : List (Option String)) :
    String :=
  if !target.columns.isEmpty then Text.joinWith ", " target.columns
  else
    match projectedNames? names with
    | some names => Text.joinWith ", " names
    | none =>
      match if guess then InsertTarget.knownColumns? target.table else none with
      | some columns => Text.joinWith ", " columns
      | none => unknownColumns

-- PostgreSQL has a query with unions in parentheses.
def insertion (dialect : Dialect) (target : InsertTarget) (columns : String) (hasUnions : Bool)
    (query : String) : String :=
  let body := if dialect = .postgresql && hasUnions then "(" ++ query ++ ")" else query
  "INSERT INTO " ++ target.table ++ " (" ++ columns ++ ")\n" ++ body

end Clause

-- Writing never fails: where a table or the columns of an insertion cannot be told, a marker in a comment
-- stands in for them.
def Select.assemble {γ : Type} (dialect : Dialect) (guess : Bool) (statement : Select γ)
    (columns groups tokens : List String) (names : List (Option String)) : String :=
  let clauses : List (Option String) :=
    [some (Clause.select dialect statement.distinct statement.limit statement.offset columns),
      some (Clause.fromTables dialect statement.joins statement.tables),
      Clause.whereTokens tokens,
      Clause.groupBy groups,
      Clause.having dialect statement.having,
      Clause.unions statement.unions,
      Clause.orderBy dialect statement.orderBy statement.offset,
      Clause.limit dialect statement.limit statement.offset]
  let query := Text.joinWith " " (clauses.filterMap id)
  match statement.insert with
  | some target =>
    Clause.insertion dialect target (Clause.insertColumns guess target names)
      (!statement.unions.isEmpty) query
  | none => query

namespace Column

def renamed (text : String) (label : Option String) : String :=
  match label with
  | some label => text ++ " AS " ++ label
  | none => text

def qualifiedName (table : Option String) (name : String) : String :=
  match table with
  | some table => table ++ "." ++ name
  | none => name

def operand (dialect : Dialect) (column : Column) (listed : String) : String :=
  match column with
  | .named name table _ => qualifiedName table name
  | .expression text _ => dialect.respell text
  | _ => listed

end Column

def Comparison.phrase (dialect : Dialect) (operator : Comparison) (left right : String) : String :=
  if operator.isUnary then left ++ " " ++ operator.sql
  else left ++ " " ++ operator.sql ++ " " ++ dialect.respell right

mutual

def Column.sql (dialect : Dialect) (guess : Bool) : Column → String
  | .named name table label => Column.renamed (Column.qualifiedName table name) label
  | .expression text label => Column.renamed (dialect.respell text) label
  | .wildcard (some table) => table ++ ".*"
  | .wildcard none => "*"
  | .subQuery query label => Column.renamed ("(" ++ Statement.sql dialect guess query ++ ")") label

def Statement.sql (dialect : Dialect) (guess : Bool) : Select Column → String
  | ⟨columns, tables, parameters, joins, conditions, groupBy, orderBy, having, limit, offset,
      distinct, unions, insert⟩ =>
    Select.assemble dialect guess
      (Select.mk columns tables parameters joins conditions groupBy orderBy having limit offset
        distinct unions insert)
      (Column.sqls dialect guess columns) (Column.sqls dialect guess groupBy)
      (Condition.sqls dialect conditions) (columns.map Column.outputName?)

def Column.sqls (dialect : Dialect) (guess : Bool) : List Column → List String
  | [] => []
  | column :: rest => column.sql dialect guess :: Column.sqls dialect guess rest

def Condition.sqls (dialect : Dialect) : List (Condition Column) → List String
  | [] => []
  | .comparison left operator right :: rest =>
    operator.phrase dialect (left.operand dialect (left.sql dialect true)) right ::
      Condition.sqls dialect rest
  | .connective connective :: rest => connective.sql :: Condition.sqls dialect rest
  | .opening :: rest => "(" :: Condition.sqls dialect rest
  | .closing :: rest => ")" :: Condition.sqls dialect rest
  | .expression text :: rest => dialect.respell text :: Condition.sqls dialect rest

end

mutual

def Statement.isWritable : Select Column → Bool
  | ⟨columns, _, _, _, conditions, groupBy, _, _, _, _, _, _, _⟩ =>
    Condition.balanced conditions && Column.areWritable columns && Column.areWritable groupBy &&
      Condition.areWritable conditions

def Column.isWritable : Column → Bool
  | .subQuery query _ => Statement.isWritable query
  | _ => true

def Column.areWritable : List Column → Bool
  | [] => true
  | column :: rest => column.isWritable && Column.areWritable rest

def Condition.areWritable : List (Condition Column) → Bool
  | [] => true
  | .comparison left _ _ :: rest => left.isWritable && Condition.areWritable rest
  | _ :: rest => Condition.areWritable rest

end

structure Unbalanced where
deriving DecidableEq, Repr

def Unbalanced.message (_ : Unbalanced) : String :=
  "unbalanced WHERE parentheses"

def Statement.write (dialect : Dialect) (guess : Bool) (statement : Statement) :
    Except Unbalanced String :=
  if Statement.isWritable statement then .ok (Statement.sql dialect guess statement)
  else .error ⟨⟩

end PipeSql
