import PipeSql.Pipeline
import PipeSql.Script.Term

set_option autoImplicit false

namespace PipeSql

inductive Misuse where
  | notAnOperation
  | notASource
  | unknownOperation (name : String)
  | missingTable (operation : String)
  | missingOn (operation : String)
  | notOneArgument (operation : String)
  | notAQuery (operation : String)
  | queryAsColumn
  | notAColumn
  | strayLambda
  | strayName (name : String)
  | tooDeep
deriving DecidableEq, Repr

def Misuse.message : Misuse → String
  | .notAnOperation => "Expected a pipeline operation such as select(...) after '|>'"
  | .notASource => "Expected a table name, variable or parenthesized pipeline"
  | .unknownOperation name => "Unknown pipeline operation '" ++ name ++ "'"
  | .missingTable operation => operation ++ "() requires a table argument"
  | .missingOn operation => operation ++ "() requires an 'on' condition argument"
  | .notOneArgument operation => operation ++ "() expects exactly one argument"
  | .notAQuery operation => operation ++ "() expects a variable or a pipeline"
  | .queryAsColumn => "Sub-query cannot be used as a column"
  | .notAColumn => "Expected a column expression"
  | .strayLambda => "Lambda expressions are only allowed as filter or having arguments"
  | .strayName name => "Named argument '" ++ name ++ "' is not allowed here"
  | .tooDeep => "Queries nest too deeply"

namespace Lowering

inductive Failure where
  | misuse (misuse : Misuse) (span : Span)
  | unbalanced (unbalanced : Unbalanced)
deriving DecidableEq, Repr

structure Scope where
  dialect : Dialect
  bound : List (String × Node)
  rows : List String

def Scope.node (scope : Scope) (name : String) : Node :=
  match scope.bound.find? fun entry => entry.1 == name with
  | some (_, node) => node
  | none => .table name

theorem Scope.node_bound (scope : Scope) (name : String) (node : Node) (asked : String) :
    Scope.node { scope with bound := (name, node) :: scope.bound } asked =
      if name == asked then node else scope.node asked := by
  unfold Scope.node
  rw [List.find?_cons]
  cases name == asked <;> rfl

-- A row name alone is kept.
def Scope.stripRow (scope : Scope) : List String → List String
  | first :: second :: rest =>
    if scope.rows.any fun row => Text.sameWord row first then second :: rest
    else first :: second :: rest
  | parts => parts

end Lowering

abbrev Lowering := ReaderT Lowering.Scope (StateT (List Parameter) (Except Lowering.Failure))

namespace Lowering

variable {α : Type}

def refuse (misuse : Misuse) (span : Span) : Lowering α :=
  throw (.misuse misuse span)

-- The type met first counts.
def addParameter (name sqlType : String) (parameters : List Parameter) : List Parameter :=
  if parameters.any fun known => known.name == name then parameters
  else parameters ++ [⟨name, sqlType⟩]

def declare (name sqlType : String) : Lowering Unit :=
  modify (addParameter name sqlType)

def withRows (names : List String) (inner : Lowering α) : Lowering α :=
  withReader (fun scope => { scope with rows := scope.rows ++ names }) inner

def withBinding (name : String) (node : Node) (inner : Lowering α) : Lowering α :=
  withReader (fun scope => { scope with bound := (name, node) :: scope.bound }) inner

def writeNode (node : Node) : Lowering String := do
  match node.write (← read).dialect with
  | .ok sql => return sql
  | .error unbalanced => throw (.unbalanced unbalanced)

end Lowering

end PipeSql
