import PipeSql.Json.Printer
import PipeSql.Json.Reader
import PipeSql.Statement.Codec

set_option autoImplicit false

namespace PipeSql

open Json (record? required? listOf? asText? asBool?)

structure ResultColumn where
  name : String
  sqlType : String
  nullable : Bool
deriving DecidableEq, Repr

structure Manifest where
  name : String
  sql : String
  parameters : List Parameter
  columns : List ResultColumn
deriving DecidableEq, Repr

def ResultColumn.toJson (column : ResultColumn) : Json :=
  .object [("name", .text column.name), ("sql_type", .text column.sqlType),
    ("nullable", .bool column.nullable)]

def ResultColumn.ofJson? (json : Json) : Option ResultColumn :=
  match record? ["name", "sql_type", "nullable"] json with
  | some [name, sqlType, nullable] => do
    return ⟨← required? asText? name, ← required? asText? sqlType, ← required? asBool? nullable⟩
  | _ => none

namespace Manifest

def describe {ε : Type} (name sql : String) (parameters : List Parameter)
    (inspect : String → List Parameter → Except ε (List ResultColumn)) : Except ε Manifest := do
  return ⟨name, sql, parameters, ← inspect sql parameters⟩

def toJson (manifest : Manifest) : Json :=
  .object [("name", .text manifest.name), ("sql", .text manifest.sql),
    ("parameters", .list (manifest.parameters.map Parameter.toJson)),
    ("columns", .list (manifest.columns.map ResultColumn.toJson))]

def ofJson? (json : Json) : Option Manifest :=
  match record? ["name", "sql", "parameters", "columns"] json with
  | some [name, sql, parameters, columns] => do
    return ⟨← required? asText? name, ← required? asText? sql,
      ← required? (listOf? Parameter.ofJson?) parameters,
      ← required? (listOf? ResultColumn.ofJson?) columns⟩
  | _ => none

def write (manifest : Manifest) : String :=
  manifest.toJson.pretty

def read? (text : String) : Option Manifest :=
  (Json.read? text).bind ofJson?

end Manifest

end PipeSql
