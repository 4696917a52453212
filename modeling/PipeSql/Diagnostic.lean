import PipeSql.Source

set_option autoImplicit false

namespace PipeSql

inductive DiagnosticKind where
  | lexical
  | grammar
  | semantic
  | unsupported
  | rendering (dialect : String)
deriving DecidableEq, Repr

structure Diagnostic where
  kind : DiagnosticKind
  message : String
  location : Option Location
deriving DecidableEq, Repr

namespace Diagnostic

def located (kind : DiagnosticKind) (message source : String) (span : Span) : Diagnostic :=
  ⟨kind, message, some (Location.ofSpan source span)⟩

def describe (diagnostic : Diagnostic) : String :=
  match diagnostic.kind with
  | .unsupported => "Unsupported construct: " ++ diagnostic.message
  | .rendering dialect => "Dialect render error (" ++ dialect ++ "): " ++ diagnostic.message
  | .lexical | .grammar | .semantic =>
    match diagnostic.location with
    | some location => location.describe ++ ": " ++ diagnostic.message
    | none => diagnostic.message

end Diagnostic

end PipeSql
