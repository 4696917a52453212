import PipeSql.Text

set_option autoImplicit false

namespace PipeSql

inductive Dialect where
  | sqlite | postgresql | sqlserver
deriving DecidableEq, Repr

namespace Dialect

def all : List Dialect :=
  [.sqlite, .postgresql, .sqlserver]

def name : Dialect → String
  | .sqlite => "sqlite"
  | .postgresql => "postgresql"
  | .sqlserver => "sqlserver"

def ofName? : String → Option Dialect
  | "sqlite" | "sqlite3" => some .sqlite
  | "postgresql" | "postgres" => some .postgresql
  | "sqlserver" | "mssql" => some .sqlserver
  | _ => none

structure Unknown where
  text : String
deriving DecidableEq, Repr

def Unknown.message (unknown : Unknown) : String :=
  "Unknown SQL dialect: " ++ unknown.text

def ofRequest (text : String) : Except Unknown Dialect :=
  let wanted := Text.asciiLower (Text.trim text)
  match ofName? wanted with
  | some dialect => .ok dialect
  | none =>
    if wanted = "pg" then .ok .postgresql
    else if wanted = "tsql" then .ok .sqlserver
    else .error ⟨wanted⟩

end Dialect

end PipeSql
