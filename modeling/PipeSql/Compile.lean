import PipeSql.Config
import PipeSql.Pipeline.OfScript
import PipeSql.Script.Screen

set_option autoImplicit false

namespace PipeSql

inductive CompileFailure where
  | diagnosed (diagnostic : Diagnostic)
  | unbalanced (unbalanced : Unbalanced)
deriving DecidableEq, Repr

def Lowering.Failure.diagnose (source : String) : Lowering.Failure → CompileFailure
  | .misuse cause span => .diagnosed (.located .unsupported cause.message source span)
  | .unbalanced cause => .unbalanced cause

def plan (config : Config) (source : String) : Except CompileFailure Plan := do
  let script ← (Script.read source config.screened).mapError .diagnosed
  (Plan.ofScript config.unionDialect script).mapError (·.diagnose source)

structure CompiledQuery where
  sql : String
  dialect : Dialect
  statement : Statement
  parameters : List Parameter

def compile (config : Config) (source : String) (dialect : Dialect) :
    Except CompileFailure CompiledQuery := do
  let plan ← plan config source
  let statement := plan.statement
  let sql ← (statement.write dialect config.guessColumns).mapError .unbalanced
  return ⟨sql, dialect, statement, plan.parameters⟩

def compileDefault (config : Config) (source : String) : Except CompileFailure CompiledQuery :=
  compile config source config.defaultDialect

end PipeSql
