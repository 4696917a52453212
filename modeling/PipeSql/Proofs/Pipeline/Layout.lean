import PipeSql.Compile
import PipeSql.Proofs.Pipeline.Cut
import PipeSql.Proofs.Script.Places

set_option autoImplicit false

namespace PipeSql

open Lowering

namespace Pipe

theorem mapped_pipe_height (place : Span → Span) (pipe : Pipe) : (pipe.mapped id place).height = pipe.height := by
  rw [height, mapped, Term.mapped_height, Term.mapped_heights, height]

theorem node_same (place : Span → Span) (pipe : Pipe) :
    Same place (fun _ => True) pipe.node (pipe.mapped id place).node := by
  have queries := @queries_same place (fun _ => True) pipe.height pipe.height pipe.height rfl
  have parallel := node_with_parallel queries pipe fun term member => ⟨term_height pipe term member, fun _ _ _ => trivial⟩
  rw [node, node, mapped_pipe_height]
  exact parallel_same (fun _ _ both => both) parallel

end Pipe

namespace Lowering

theorem same_with_binding {α : Type} {place : Span → Span} {left right : Lowering α} (name : String) (node : Node)
    (inner : Same place (fun _ => True) left right) :
    Same place (fun _ => True) (withBinding name node left) (withBinding name node right) := by
  intro scope other beside parameters
  apply inner { scope with bound := (name, node) :: scope.bound } { other with bound := (name, node) :: other.bound }
  refine ⟨beside.dialect, beside.rows, fun asked _ => ?_⟩
  rw [other.node_bound, scope.node_bound, beside.nodes asked trivial]

end Lowering

namespace Plan

theorem last_node_same (place : Span → Span) (statement : ScriptStatement) (rest : List ScriptStatement) :
    Same place (fun _ => True) (lastNode statement rest)
      (lastNode (statement.mapped id place) (rest.map (ScriptStatement.mapped id place))) := by
  induction rest generalizing statement with
  | nil => cases statement <;> exact Pipe.node_same place _
  | cons next rest ih =>
    cases statement with
    | bind name span value =>
      exact same_bind (Pipe.node_same place value) fun node => same_with_binding name node (ih next)
    | query value => exact same_bind (Pipe.node_same place value) fun _ => ih next

theorem of_script_moved (place : Span → Span) (dialect : Dialect) (script : Script) :
    ofScript dialect (script.mapped id place) = (ofScript dialect script).mapError (Failure.moved place) := by
  rw [of_script_eq, of_script_eq]
  have same := last_node_same place script.first script.others ⟨dialect, [], []⟩ _ (Scope.beside_self _) []
  rw [Script.mapped, same]
  cases lastNode script.first script.others ⟨dialect, [], []⟩ [] <;> rfl

end Plan

-- What is reported but for the place. Unbalanced text has no kind of its own.
def CompileFailure.report : CompileFailure → Option DiagnosticKind × String
  | .diagnosed diagnostic => (some diagnostic.kind, diagnostic.message)
  | .unbalanced cause => (none, cause.message)

-- The plan of what was read, with reports in place of failures.
def Plan.ofOutline (queries : Dialect) : Except String Script → Except (Option DiagnosticKind × String) Plan
  | .error message => .error (some .grammar, message)
  | .ok script => (ofScript queries script).mapError fun failure => (failure.diagnose "").report

section

variable {config : Config} {source : String} {lexemes : List Lexeme}

theorem read_unscreened (lexed : tokenize source = .ok lexemes) :
    Script.read source false = (Script.parse lexemes (Text.width source.toList)).mapError (·.diagnose source) := by
  rw [Script.read, lexed]
  rfl

theorem plan_of_outline (unscreened : config.screened = false) (lexed : tokenize source = .ok lexemes) :
    (plan config source).mapError CompileFailure.report =
      Plan.ofOutline config.unionDialect (Script.outline lexemes (Text.width source.toList)) := by
  rw [plan, unscreened, read_unscreened lexed, Script.outline]
  cases Script.parse lexemes (Text.width source.toList) with
  | error fault => rfl
  | ok script =>
    change ((Plan.ofScript config.unionDialect script).mapError (·.diagnose source)).mapError CompileFailure.report =
      (Plan.ofScript config.unionDialect (script.mapped id Span.nowhere)).mapError _
    rw [Plan.of_script_moved]
    cases Plan.ofScript config.unionDialect script with
    | ok plan => rfl
    | error failure => cases failure <;> rfl

theorem compile_of_plan (config : Config) (source : String) (dialect : Dialect) :
    (compile config source dialect).mapError CompileFailure.report =
      ((plan config source).mapError CompileFailure.report).bind fun plan =>
        ((plan.statement.write dialect config.guessColumns).map fun sql =>
          (⟨sql, dialect, plan.statement, plan.parameters⟩ : CompiledQuery)).mapError fun unbalanced =>
            (none, unbalanced.message) := by
  rw [compile]
  cases plan config source with
  | error failure => rfl
  | ok plan =>
    change ((plan.statement.write dialect config.guessColumns).mapError CompileFailure.unbalanced >>= _).mapError _ =
      ((plan.statement.write dialect config.guessColumns).map _).mapError _
    cases plan.statement.write dialect config.guessColumns <;> rfl

end

theorem compile_ignores_layout (config : Config) (unscreened : config.screened = false) (dialect : Dialect)
    (left right : String) (lexemes others : List Lexeme) (leftLexed : tokenize left = .ok lexemes)
    (rightLexed : tokenize right = .ok others) (same : lexemes.map Lexeme.token = others.map Lexeme.token) :
    (compile config left dialect).mapError CompileFailure.report =
      (compile config right dialect).mapError CompileFailure.report := by
  rw [compile_of_plan, compile_of_plan, plan_of_outline unscreened leftLexed, plan_of_outline unscreened rightLexed,
    Script.outline_eq same]

theorem commented_filter_compiles_alike :
    ∃ lexemes others, tokenize "t|>filter(a<>1 and b)" = .ok lexemes ∧
      tokenize "t -- rows\n |> filter( a != 1\tAND b )" = .ok others ∧
      lexemes.map Lexeme.token = others.map Lexeme.token ∧ lexemes ≠ others ∧
      (compile ⟨.postgresql, .sqlite, false, true⟩ "t|>filter(a<>1 and b)" .sqlserver).mapError CompileFailure.report =
        (compile ⟨.postgresql, .sqlite, false, true⟩ "t -- rows\n |> filter( a != 1\tAND b )" .sqlserver).mapError
          CompileFailure.report := by
  have lexed : tokenize "t|>filter(a<>1 and b)" = .ok [⟨.ident "t", ⟨0, 1⟩⟩, ⟨.symbol .pipe, ⟨1, 3⟩⟩,
      ⟨.ident "filter", ⟨3, 9⟩⟩, ⟨.symbol .leftParen, ⟨9, 10⟩⟩, ⟨.ident "a", ⟨10, 11⟩⟩, ⟨.symbol .notEq, ⟨11, 13⟩⟩,
      ⟨.int "1", ⟨13, 14⟩⟩, ⟨.keyword .and, ⟨15, 18⟩⟩, ⟨.ident "b", ⟨19, 20⟩⟩, ⟨.symbol .rightParen, ⟨20, 21⟩⟩] := by
    decide +kernel
  have spaced : tokenize "t -- rows\n |> filter( a != 1\tAND b )" = .ok [⟨.ident "t", ⟨0, 1⟩⟩, ⟨.symbol .pipe, ⟨11, 13⟩⟩,
      ⟨.ident "filter", ⟨14, 20⟩⟩, ⟨.symbol .leftParen, ⟨20, 21⟩⟩, ⟨.ident "a", ⟨22, 23⟩⟩, ⟨.symbol .notEq, ⟨24, 26⟩⟩,
      ⟨.int "1", ⟨27, 28⟩⟩, ⟨.keyword .and, ⟨29, 32⟩⟩, ⟨.ident "b", ⟨33, 34⟩⟩, ⟨.symbol .rightParen, ⟨35, 36⟩⟩] := by
    decide +kernel
  exact ⟨_, _, lexed, spaced, rfl, by decide, compile_ignores_layout _ rfl _ _ _ _ _ lexed spaced rfl⟩

end PipeSql
