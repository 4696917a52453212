import PipeSql.Statement.Condition
import PipeSql.Text

set_option autoImplicit false

namespace PipeSql

structure Table where
  name : String
  label : Option String
deriving DecidableEq, Repr

def Table.named (name : String) : Table :=
  ⟨name, none⟩

structure Parameter where
  name : String
  sqlType : String
deriving DecidableEq, Repr

inductive SortDirection where
  | asc | desc
deriving DecidableEq, Repr

def SortDirection.sql : SortDirection → String
  | .asc => "ASC"
  | .desc => "DESC"

structure OrderItem where
  column : String
  direction : SortDirection
deriving DecidableEq, Repr

structure Join where
  left : String
  right : String
  condition : Option String
  joinType : String
deriving DecidableEq, Repr

def Join.find? (joins : List Join) (table : String) : Option Join :=
  List.find? (fun join => Text.sameWord join.right table) joins

structure UnionQuery where
  query : String
  all : Bool
deriving DecidableEq, Repr

structure InsertTarget where
  table : String
  columns : List String
deriving DecidableEq, Repr

-- A column may be a whole statement, so a statement is given over the type of its columns.
structure Select (γ : Type) where
  columns : List γ
  tables : List Table
  parameters : List Parameter
  joins : List Join
  conditions : List (Condition γ)
  groupBy : List γ
  orderBy : List OrderItem
  having : Option String
  limit : Option String
  offset : Option String
  distinct : Bool
  unions : List UnionQuery
  insert : Option InsertTarget
deriving Repr

inductive Column where
  | named (name : String) (table label : Option String)
  | expression (text : String) (label : Option String)
  | wildcard (table : Option String)
  | subQuery (query : Select Column) (label : Option String)
deriving Repr

abbrev Statement := Select Column

namespace Column

def ofName (name : String) : Column :=
  .named name none none

def ofText (text : String) : Column :=
  .expression text none

def withAlias (label : String) : Column → Column
  | .named name table _ => .named name table (some label)
  | .expression text _ => .expression text (some label)
  | .wildcard table => .wildcard table
  | .subQuery query _ => .subQuery query (some label)

def alias? : Column → Option String
  | .named _ _ label => label
  | .expression _ label => label
  | .wildcard _ => none
  | .subQuery _ label => label

def outputName? : Column → Option String
  | .named name _ label => some (label.getD name)
  | .expression _ label => label
  | .wildcard _ => none
  | .subQuery _ label => label

end Column

namespace Statement

def empty : Statement :=
  { columns := [], tables := [], parameters := [], joins := [], conditions := [], groupBy := [],
    orderBy := [], having := none, limit := none, offset := none, distinct := false, unions := [],
    insert := none }

def withBase (statement : Statement) (table : Table) : Statement :=
  { statement with tables := table :: statement.tables.tail }

def base? (statement : Statement) : Option Table :=
  statement.tables.head?

def addJoin (statement : Statement) (table : Table) (join : Join) : Statement :=
  { statement with tables := statement.tables ++ [table], joins := statement.joins ++ [join] }

def project (statement : Statement) (columns : List Column) (distinct : Bool) : Statement :=
  { statement with columns := columns, distinct := distinct }

def addCondition (statement : Statement) (condition : Condition Column) : Statement :=
  { statement with conditions := statement.conditions ++ [condition] }

def restrict (statement : Statement) (conditions : List (Condition Column)) : Statement :=
  let connected := if statement.conditions.isEmpty then conditions else .and :: conditions
  { statement with conditions := statement.conditions ++ connected }

def groupOn (statement : Statement) (columns : List Column) : Statement :=
  { statement with groupBy := statement.groupBy ++ columns }

def orderOn (statement : Statement) (items : List OrderItem) : Statement :=
  { statement with orderBy := statement.orderBy ++ items }

def addUnion (statement : Statement) (union : UnionQuery) : Statement :=
  { statement with unions := statement.unions ++ [union] }

def declare (statement : Statement) (parameter : Parameter) : Statement :=
  if statement.parameters.any fun known => known.name == parameter.name then statement
  else { statement with parameters := statement.parameters ++ [parameter] }

end Statement

end PipeSql
