import PipeSql.Statement.Sql

set_option autoImplicit false

namespace PipeSql

inductive Step (ν : Type) where
  | source (node : ν)
  | join (table : Table) (join : Join)
  | filter (conditions : List (Condition Column))
  | select (columns : List Column)
  | selectDistinct (columns : List Column)
  | groupBy (columns : List Column)
  | orderBy (items : List OrderItem)
  | having (condition : String)
  | limit (count : String)
  | offset (count : String)
  | union (query : String)
  | unionAll (query : String)
  | insert (table : String) (columns : List String)
deriving Repr

inductive Node where
  | table (name : String)
  | pipeline (steps : List (Step Node))
deriving Repr, Inhabited

namespace Node

mutual

def lastTable? : Node → Option String
  | .table name => some name
  | .pipeline steps => stepsLastTable? steps

def stepsLastTable? : List (Step Node) → Option String
  | [] => none
  | step :: rest => stepsLastTable? rest <|> stepTable? step

def stepTable? : Step Node → Option String
  | .join joined _ => some joined.name
  | .source node => lastTable? node
  | _ => none

end

end Node

def Step.apply {ν : Type} (statement : Statement) : Step ν → Statement
  | .source _ => statement
  | .join joined relation => statement.addJoin joined relation
  | .filter conditions => statement.restrict conditions
  | .select columns => statement.project columns false
  | .selectDistinct columns => statement.project columns true
  | .groupBy columns => statement.groupOn columns
  | .orderBy items => statement.orderOn items
  | .having condition => { statement with having := some condition }
  | .limit count => { statement with limit := some count }
  | .offset count => { statement with offset := some count }
  | .union query => statement.addUnion ⟨query, false⟩
  | .unionAll query => statement.addUnion ⟨query, true⟩
  | .insert table columns => { statement with insert := some ⟨table, columns⟩ }

namespace Node

mutual

def addTo (statement : Statement) : Node → Statement
  | .table name => statement.withBase (.named name)
  | .pipeline steps => addSteps statement steps

def addSteps (statement : Statement) : List (Step Node) → Statement
  | [] => statement
  | step :: rest => addSteps (addStep statement step) rest

def addStep (statement : Statement) : Step Node → Statement
  | .source node => addTo statement node
  | step => step.apply statement

end

def statement (node : Node) : Statement :=
  node.addTo .empty

def write (dialect : Dialect) (node : Node) : Except Unbalanced String :=
  node.statement.write dialect true

end Node

end PipeSql
