import PipeSql.Dialect
import PipeSql.Json

set_option autoImplicit false

namespace PipeSql

structure Config where
  defaultDialect : Dialect := .postgresql
  -- Queries inside of terms are written before the outer dialect is known.
  unionDialect : Dialect := .postgresql
  screened : Bool := true
  guessColumns : Bool := true
deriving DecidableEq, Repr

namespace Config

def components : List String :=
  ["default_dialect", "union_dialect", "run_prechecks", "insert_column_guesses"]

def toJson (config : Config) : Json :=
  .object [("default_dialect", .text config.defaultDialect.name),
    ("union_dialect", .text config.unionDialect.name),
    ("run_prechecks", .bool config.screened),
    ("insert_column_guesses", .bool config.guessColumns)]

def given? {α : Type} (decode : Json → Option α) (fallback : α) : Option Json → Option α
  | some json => decode json
  | none => some fallback

def dialect? (json : Json) : Option Dialect :=
  (json.choice? .outside).bind Dialect.ofName?

-- A list of components may end early.
def fields? (json : Json) : Option (List (Option Json)) :=
  match json with
  | .list items =>
    if items.length ≤ components.length then
      some (items.map some ++ List.replicate (components.length - items.length) none)
    else none
  | _ => json.record? components

def ofJson? (json : Json) : Option Config :=
  match fields? json with
  | some [defaultDialect, unionDialect, screened, guessColumns] => do
    return {
      defaultDialect := ← given? dialect? .postgresql defaultDialect
      unionDialect := ← given? dialect? .postgresql unionDialect
      screened := ← given? Json.asBool? true screened
      guessColumns := ← given? Json.asBool? true guessColumns }
  | _ => none

end Config

end PipeSql
