import PipeSql.Config
import PipeSql.Toml.Reader

set_option autoImplicit false

namespace PipeSql.Config

-- By its name, or by a table whose only key is the name and leads to nothing.
def dialectOfToml? : Toml → Option Dialect
  | .text name => Dialect.ofName? name
  | .table _ [(name, .list [])] => Dialect.ofName? name
  | .table _ [(name, .table _ [])] => Dialect.ofName? name
  | _ => none

def flagOfToml? : Toml → Option Bool
  | .bool value => some value
  | _ => none

def setting? {α : Type} (decode : Toml → Option α) (fallback : α) (name : String)
    (fields : Toml.Fields) : Option α :=
  match fields.get? name with
  | some value => decode value
  | none => some fallback

def ofToml? (fields : Toml.Fields) : Option Config := do
  return {
    defaultDialect := ← setting? dialectOfToml? .postgresql "default_dialect" fields
    unionDialect := ← setting? dialectOfToml? .postgresql "union_dialect" fields
    screened := ← setting? flagOfToml? true "run_prechecks" fields
    guessColumns := ← setting? flagOfToml? true "insert_column_guesses" fields }

def read? (text : String) : Option Config :=
  (Toml.read? text).bind ofToml?

inductive LoadFailure where
  | missing
  | malformed
deriving DecidableEq, Repr

def LoadFailure.message : LoadFailure → String
  | .missing => "IO error: No such file or directory (os error 2)"
  | .malformed => "Invalid configuration"

def load (text : Option String) : Except LoadFailure Config :=
  match text with
  | none => .error .missing
  | some text =>
    match read? text with
    | some config => .ok config
    | none => .error .malformed

end PipeSql.Config
