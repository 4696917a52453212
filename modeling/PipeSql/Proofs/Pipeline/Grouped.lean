import PipeSql.Compile
import PipeSql.Proofs.Pipeline.Conditions
import PipeSql.Proofs.Pipeline.Lowered
import PipeSql.Proofs.Pipeline.Parallel
import PipeSql.Query

set_option autoImplicit false

namespace PipeSql

open Lowering Clause

-- What both ways to build a statement keep.
structure Statement.Grouped (statement : Statement) : Prop where
  conditions : IsGrouped statement.conditions
  columns : Column.areWritable statement.columns = true
  groupBy : Column.areWritable statement.groupBy = true
  operands : Condition.areWritable statement.conditions = true

namespace Statement

variable {statement : Statement}

theorem empty_grouped : Grouped .empty :=
  ⟨.inl rfl, rfl, rfl, rfl⟩

theorem grouped_writable (grouped : statement.Grouped) : isWritable statement = true := by
  obtain ⟨conditions, columns, groupBy, operands⟩ := grouped
  have balanced := grouped_balanced conditions
  cases statement
  simp only [isWritable, balanced, columns, groupBy, operands, Bool.and_true]

theorem grouped_written (grouped : statement.Grouped) (dialect : Dialect) (guess : Bool) :
    statement.write dialect guess = .ok (sql dialect guess statement) := by
  rw [write, if_pos (grouped_writable grouped)]

theorem restrict_grouped (grouped : statement.Grouped) {conditions : List (Condition Column)}
    (clause : Term.IsClause conditions) : (statement.restrict conditions).Grouped := by
  refine { grouped with conditions := .inr (grouped_conjoin grouped.conditions clause.1), operands := ?_ }
  unfold restrict
  dsimp only
  by_cases first : statement.conditions.isEmpty = true
  · rw [if_pos first, Condition.are_writable_append, grouped.operands, clause.2]
    rfl
  · rw [if_neg first, Condition.are_writable_append, grouped.operands]
    exact clause.2

theorem group_on_grouped (grouped : statement.Grouped) {columns : List Column}
    (writable : Column.areWritable columns = true) : (statement.groupOn columns).Grouped := by
  refine { grouped with groupBy := ?_ }
  rw [groupOn, Column.are_writable_append, grouped.groupBy, writable]
  rfl

end Statement

namespace Node

theorem add_step_grouped {current : Option String} {step : Step Node} (lowered : step.Lowered current)
    {statement : Statement} (grouped : statement.Grouped) : (addStep statement step).Grouped := by
  cases lowered with
  | filter formula writable => exact Statement.restrict_grouped grouped ⟨formula, writable⟩
  | select writable => exact { grouped with columns := writable }
  | selectDistinct writable => exact { grouped with columns := writable }
  | groupBy writable => exact Statement.group_on_grouped grouped writable
  | _ => exact { grouped with }

theorem add_steps_grouped {current : Option String} {steps : List (Step Node)} (chain : Stage.Chain current steps)
    {statement : Statement} (grouped : statement.Grouped) : (addSteps statement steps).Grouped := by
  induction chain generalizing statement with
  | nil current => exact grouped
  | cons first others ih => exact ih (add_step_grouped first grouped)

theorem statement_grouped {node : Node} (lowered : node.Lowered) : node.statement.Grouped := by
  induction lowered with
  | table name => exact { Statement.empty_grouped with }
  | pipeline source chain ih => exact add_steps_grouped chain ih

end Node

namespace Lowering

variable {place : Span → Span} {known : String → Prop} {asked : Lowering String → Lowering String → Prop}

-- No query that the lowering writes is refused.
def Writable {α : Type} (lowering : Lowering α) : Prop :=
  ∀ scope, scope.Lowered → ∀ parameters cause, lowering scope parameters ≠ .error (.unbalanced cause)

theorem writable_bind {α β : Type} {scope : Scope} {first : Lowering α} {next : α → Lowering β}
    {parameters : List Parameter} {cause : Unbalanced}
    (begun : first scope parameters ≠ .error (.unbalanced cause))
    (ended : ∀ value met, first scope parameters = .ok (value, met) → next value scope met ≠ .error (.unbalanced cause)) :
    (first >>= next) scope parameters ≠ .error (.unbalanced cause) := by
  change (first scope parameters).bind (fun pair => next pair.1 scope pair.2) ≠ _
  cases run : first scope parameters with
  | error failure =>
    rintro ⟨⟩
    exact begun run
  | ok pair => exact ended pair.1 pair.2 run

theorem parallel_writable (queries : ∀ left right, asked left right → Writable left) {α : Type}
    {left right : Lowering α} (parallel : Parallel place known asked left right) : Writable left := by
  induction parallel with
  | pure | refuse | declare | stripped | lookup =>
    intro scope lowered parameters cause same
    cases same
  | bind first others firstIh othersIh =>
    intro scope lowered parameters cause
    exact writable_bind (firstIh scope lowered parameters cause) fun value met _ => othersIh value scope lowered met cause
  | rows names inner ih => exact fun scope lowered => ih { scope with rows := scope.rows ++ names } lowered
  | query both => exact queries _ _ both

theorem write_node_ok {node : Node} (lowered : node.Lowered) (scope : Scope) (parameters : List Parameter) :
    writeNode node scope parameters = .ok (Statement.sql scope.dialect true node.statement, parameters) := by
  rw [write_node_eq, Node.write, Statement.grouped_written (Node.statement_grouped lowered)]
  rfl

theorem Scope.reached_lowered {scope : Scope} (reached : scope.Reached) : scope.Lowered := by
  induction reached with
  | start dialect => exact Scope.start_lowered dialect []
  | bound name reached accepted member lowered ih =>
    exact Scope.bound_lowered ih name (Pipe.node_with_lowered ih _ _ _ _ lowered)
  | rows names reached ih => exact ih

end Lowering

namespace Pipe

theorem node_with_writable {queryText : QueryText} (queries : ∀ source stages, Writable (queryText source stages))
    (pipe : Pipe) : Writable (pipe.nodeWith queryText) := by
  have asked : Term.QueriesParallel id (fun _ => True) (fun left _ => Writable left) pipe.height queryText queryText :=
    fun source stages _ _ => queries source stages
  refine parallel_writable (fun left right writable => writable) (node_with_parallel asked pipe fun term member => ?_)
  exact ⟨term_height pipe term member, fun _ _ _ => trivial⟩

theorem text_within_writable (depth : Nat) (source : Term) (stages : List Term) :
    Writable (textWithin depth source stages) := by
  induction depth generalizing source stages with
  | zero =>
    intro scope lowered parameters cause same
    cases same
  | succ depth ih =>
    intro scope lowered parameters cause
    refine writable_bind (node_with_writable ih ⟨source, stages⟩ scope lowered parameters cause) fun node met done => ?_
    rw [write_node_ok (node_with_lowered lowered _ _ _ _ done)]
    rintro ⟨⟩

end Pipe

namespace Plan

theorem last_node_writable (statement : ScriptStatement) (rest : List ScriptStatement) :
    Writable (lastNode statement rest) := by
  have node : ∀ pipe : Pipe, Writable pipe.node := fun pipe =>
    Pipe.node_with_writable (Pipe.text_within_writable pipe.height) pipe
  induction rest generalizing statement with
  | nil => cases statement <;> exact node _
  | cons next rest ih =>
    intro scope lowered parameters cause
    cases statement with
    | bind name span value =>
      refine writable_bind (node value scope lowered parameters cause) fun bound met done => ?_
      have boundLowered := Pipe.node_with_lowered lowered value parameters bound met done
      exact ih next _ (Scope.bound_lowered lowered name boundLowered) met cause
    | query value =>
      exact writable_bind (node value scope lowered parameters cause) fun _ met _ => ih next scope lowered met cause

theorem statement_grouped {plan : Plan} (lowered : plan.root.Lowered) : plan.statement.Grouped := by
  obtain ⟨declared, same⟩ := declared_eq plan.parameters plan.root.statement
  rw [statement, same]
  exact { Node.statement_grouped lowered with }

theorem of_script_writable (dialect : Dialect) (script : Script) (cause : Unbalanced) :
    ofScript dialect script ≠ .error (.unbalanced cause) := by
  have writable := last_node_writable script.first script.others _ (Scope.start_lowered dialect []) [] cause
  rw [of_script_eq]
  intro failed
  cases run : lastNode script.first script.others ⟨dialect, [], []⟩ [] with
  | error failure =>
    rw [run] at failed writable
    cases failed
    exact writable rfl
  | ok result =>
    rw [run] at failed
    cases failed

end Plan

-- A script that is not planned is diagnosed: it is never refused for its parentheses.
theorem plan_outcome (config : Config) (source : String) :
    (∃ diagnostic, plan config source = .error (.diagnosed diagnostic)) ∨
      ∃ script result, Plan.ofScript config.unionDialect script = .ok result ∧ plan config source = .ok result := by
  unfold plan
  cases read : Script.read source config.screened with
  | error diagnostic => exact .inl ⟨diagnostic, rfl⟩
  | ok script =>
    cases lowered : Plan.ofScript config.unionDialect script with
    | ok result =>
      refine .inr ⟨script, result, lowered, ?_⟩
      change (Plan.ofScript config.unionDialect script).mapError _ = _
      rw [lowered]
      rfl
    | error failure =>
      cases failure with
      | unbalanced cause => exact absurd lowered (Plan.of_script_writable config.unionDialect script cause)
      | misuse misuse span =>
        refine .inl ⟨.located .unsupported misuse.message source span, ?_⟩
        change (Plan.ofScript config.unionDialect script).mapError _ = _
        rw [lowered]
        rfl

theorem compile_writable (config : Config) (source : String) (dialect : Dialect) (cause : Unbalanced) :
    compile config source dialect ≠ .error (.unbalanced cause) := by
  unfold compile
  rcases plan_outcome config source with ⟨diagnostic, failed⟩ | ⟨script, result, lowered, planned⟩
  · rw [failed]
    rintro ⟨⟩
  · rw [planned]
    change ((result.statement.write dialect config.guessColumns).mapError _ >>= _) ≠ _
    rw [Statement.grouped_written (Plan.statement_grouped (Plan.root_lowered lowered))]
    rintro ⟨⟩

namespace Except

variable {ε α β : Type}

theorem bind_ok {first : Except ε α} {next : α → Except ε β} {result : β} (done : first >>= next = .ok result) :
    ∃ value, first = .ok value ∧ next value = .ok result := by
  cases first with
  | error failure => cases done
  | ok value => exact ⟨value, rfl, done⟩

theorem map_ok {first : Except ε α} {next : α → β} {result : β} (done : (do return next (← first)) = .ok result) :
    ∃ value, first = .ok value ∧ result = next value := by
  obtain ⟨value, begun, ended⟩ := bind_ok done
  cases ended
  exact ⟨value, begun, rfl⟩

end Except

namespace Formula

theorem conditions_clause {formula : Formula} {conditions : List (Condition Column)}
    (done : formula.conditions = .ok conditions) : Term.IsClause conditions := by
  obtain ⟨sql, _, rfl⟩ := Except.map_ok done
  have single : Term.IsClause [.expression sql] := ⟨.operand (.expression sql), rfl⟩
  by_cases loose : formula.isLooseOr = true
  · rw [if_pos loose]
    exact Term.clause_enclosed single
  · rw [if_neg loose]
    exact single

theorem column_writable {formula : Formula} {column : Column} (done : formula.column = .ok column) :
    column.isWritable = true := by
  unfold Formula.column at done
  cases formula with
  | member target name =>
    cases done
    rfl
  | _ =>
    obtain ⟨text, _, rfl⟩ := Except.map_ok done
    rfl

theorem columns_writable (formulas : List Formula) {columns : List Column}
    (done : formulas.mapM Formula.column = .ok columns) : Column.areWritable columns = true := by
  induction formulas generalizing columns with
  | nil =>
    cases done
    rfl
  | cons formula rest ih =>
    rw [List.mapM_cons] at done
    obtain ⟨first, begun, done⟩ := Except.bind_ok done
    obtain ⟨others, ended, rfl⟩ := Except.map_ok done
    simp [Column.areWritable, column_writable begun, ih ended]

end Formula

theorem QueryOp.apply_grouped {statement result : Statement} (grouped : statement.Grouped) (op : QueryOp)
    (done : op.apply statement = .ok result) : result.Grouped := by
  cases op with
  | filter predicate =>
    obtain ⟨conditions, lowered, rfl⟩ := Except.map_ok done
    exact Statement.restrict_grouped grouped (Formula.conditions_clause lowered)
  | select columns =>
    obtain ⟨written, lowered, rfl⟩ := Except.map_ok done
    exact { grouped with columns := Formula.columns_writable columns lowered }
  | groupBy keys =>
    obtain ⟨written, lowered, rfl⟩ := Except.map_ok done
    exact Statement.group_on_grouped grouped (Formula.columns_writable keys lowered)
  | orderBy key direction | thenBy key direction =>
    obtain ⟨item, _, rfl⟩ := Except.map_ok done
    exact { grouped with }
  | take count | skip count | distinct =>
    cases done
    exact { grouped with }

theorem QueryOp.apply_all_grouped (ops : List QueryOp) {statement result : Statement} (grouped : statement.Grouped)
    (done : ops.foldlM QueryOp.apply statement = .ok result) : result.Grouped := by
  induction ops generalizing statement with
  | nil =>
    cases done
    exact grouped
  | cons op rest ih =>
    rw [List.foldlM_cons] at done
    obtain ⟨next, applied, done⟩ := Except.bind_ok done
    exact ih (QueryOp.apply_grouped grouped op applied) done

theorem Query.statement_grouped {query : Query} {result : Statement} (done : query.statement = .ok result) :
    result.Grouped := by
  have based : (Statement.empty.withBase (.named query.table)).Grouped := { Statement.empty_grouped with }
  exact QueryOp.apply_all_grouped query.ops based done

-- A query inside of a term is written where it is met, so the second part is about pipes at any depth.
theorem where_clauses_are_formulas :
    (∀ (config : Config) (source : String) (result : Plan), plan config source = .ok result →
      IsGrouped result.statement.conditions ∧ Condition.balanced result.statement.conditions = true) ∧
    (∀ (scope : Scope) (depth : Nat) (pipe : Pipe) (node : Node) (parameters met : List Parameter), scope.Reached →
      pipe.nodeWith (Pipe.textWithin depth) scope parameters = .ok (node, met) →
      IsGrouped node.statement.conditions ∧ Condition.balanced node.statement.conditions = true) ∧
    (∀ (query : Query) (result : Statement), query.statement = .ok result →
      IsGrouped result.conditions ∧ Condition.balanced result.conditions = true ∧
      ∀ dialect guess, result.write dialect guess = .ok (Statement.sql dialect guess result)) ∧
    ∀ (config : Config) (source : String) (dialect : Dialect) (cause : Unbalanced),
      compile config source dialect ≠ .error (.unbalanced cause) := by
  have formula : ∀ {statement : Statement}, statement.Grouped →
      IsGrouped statement.conditions ∧ Condition.balanced statement.conditions = true :=
    fun grouped => ⟨grouped.conditions, grouped_balanced grouped.conditions⟩
  refine ⟨?_, ?_, ?_, compile_writable⟩
  · intro config source result planned
    rcases plan_outcome config source with ⟨diagnostic, failed⟩ | ⟨script, other, lowered, same⟩
    · cases failed.symm.trans planned
    · cases same.symm.trans planned
      exact formula (Plan.statement_grouped (Plan.root_lowered lowered))
  · intro scope depth pipe node parameters met reached done
    exact formula (Node.statement_grouped (Pipe.node_with_lowered (Scope.reached_lowered reached) pipe _ _ _ done))
  · intro query result done
    have grouped := Query.statement_grouped done
    exact ⟨(formula grouped).1, (formula grouped).2, Statement.grouped_written grouped⟩

theorem nested_disjunctions_are_formulas :
    (∃ result, plan ⟨.postgresql, .sqlite, false, true⟩ "t|>filter(a or exists(u|>filter(b or c)))|>filter(d)" =
        .ok result ∧
      IsGrouped result.statement.conditions ∧ Condition.balanced result.statement.conditions = true) ∧
    (∃ node met, (Pipe.mk (.ident ⟨22, 23⟩ "u") [.call ⟨25, 39⟩ ⟨"filter", ⟨25, 31⟩, false⟩
        [.binary ⟨32, 38⟩ .or (.ident ⟨32, 33⟩ "b") (.ident ⟨37, 38⟩ "c")]]).nodeWith (Pipe.textWithin 5)
          ⟨.sqlite, [], []⟩ [] = .ok (node, met) ∧
      IsGrouped node.statement.conditions ∧ Condition.balanced node.statement.conditions = true) ∧
    ∃ result, Query.statement ⟨"t", [.filter ⟨"r", .binary .or (.member (.parameter "r") "a") (.constant (.bool true))⟩,
        .filter ⟨"s", .member (.parameter "s") "b"⟩]⟩ = .ok result ∧
      IsGrouped result.conditions ∧ Condition.balanced result.conditions = true := by
  have tokens : tokenize "t|>filter(a or exists(u|>filter(b or c)))|>filter(d)" = .ok [⟨.ident "t", ⟨0, 1⟩⟩,
      ⟨.symbol .pipe, ⟨1, 3⟩⟩, ⟨.ident "filter", ⟨3, 9⟩⟩, ⟨.symbol .leftParen, ⟨9, 10⟩⟩, ⟨.ident "a", ⟨10, 11⟩⟩,
      ⟨.keyword .or, ⟨12, 14⟩⟩, ⟨.keyword .exists, ⟨15, 21⟩⟩, ⟨.symbol .leftParen, ⟨21, 22⟩⟩, ⟨.ident "u", ⟨22, 23⟩⟩,
      ⟨.symbol .pipe, ⟨23, 25⟩⟩, ⟨.ident "filter", ⟨25, 31⟩⟩, ⟨.symbol .leftParen, ⟨31, 32⟩⟩, ⟨.ident "b", ⟨32, 33⟩⟩,
      ⟨.keyword .or, ⟨34, 36⟩⟩, ⟨.ident "c", ⟨37, 38⟩⟩, ⟨.symbol .rightParen, ⟨38, 39⟩⟩,
      ⟨.symbol .rightParen, ⟨39, 40⟩⟩, ⟨.symbol .rightParen, ⟨40, 41⟩⟩, ⟨.symbol .pipe, ⟨41, 43⟩⟩,
      ⟨.ident "filter", ⟨43, 49⟩⟩, ⟨.symbol .leftParen, ⟨49, 50⟩⟩, ⟨.ident "d", ⟨50, 51⟩⟩,
      ⟨.symbol .rightParen, ⟨51, 52⟩⟩] := by decide +kernel
  have accepted : Script.read "t|>filter(a or exists(u|>filter(b or c)))|>filter(d)" false = .ok
      ⟨.query ⟨.ident ⟨0, 1⟩ "t", [.call ⟨3, 41⟩ ⟨"filter", ⟨3, 9⟩, false⟩ [.binary ⟨10, 40⟩ .or (.ident ⟨10, 11⟩ "a")
        (.exists ⟨15, 40⟩ (.ident ⟨22, 23⟩ "u") [.call ⟨25, 39⟩ ⟨"filter", ⟨25, 31⟩, false⟩
          [.binary ⟨32, 38⟩ .or (.ident ⟨32, 33⟩ "b") (.ident ⟨37, 38⟩ "c")]])],
        .call ⟨43, 52⟩ ⟨"filter", ⟨43, 49⟩, false⟩ [.ident ⟨50, 51⟩ "d"]]⟩, []⟩ :=
    Script.read_of_stages tokens (by set_option maxRecDepth 4000 in rfl)
  have planned : ∃ result, plan ⟨.postgresql, .sqlite, false, true⟩ "t|>filter(a or exists(u|>filter(b or c)))|>filter(d)" =
      .ok result := by
    unfold plan
    rw [accepted]
    exact ⟨_, rfl⟩
  have nested : ∃ node met, (Pipe.mk (.ident ⟨22, 23⟩ "u") [.call ⟨25, 39⟩ ⟨"filter", ⟨25, 31⟩, false⟩
      [.binary ⟨32, 38⟩ .or (.ident ⟨32, 33⟩ "b") (.ident ⟨37, 38⟩ "c")]]).nodeWith (Pipe.textWithin 5)
        ⟨.sqlite, [], []⟩ [] = .ok (node, met) := ⟨_, _, rfl⟩
  have recorded : ∃ result, Query.statement ⟨"t", [.filter ⟨"r", .binary .or (.member (.parameter "r") "a")
      (.constant (.bool true))⟩, .filter ⟨"s", .member (.parameter "s") "b"⟩]⟩ = .ok result := ⟨_, rfl⟩
  obtain ⟨scripts, queries, chains, _⟩ := where_clauses_are_formulas
  obtain ⟨result, planned⟩ := planned
  obtain ⟨node, met, nested⟩ := nested
  obtain ⟨statement, recorded⟩ := recorded
  have chained := chains _ statement recorded
  refine ⟨⟨result, planned, scripts _ _ result planned⟩, ⟨node, met, nested, ?_⟩, statement, recorded, chained.1, chained.2.1⟩
  exact queries _ 5 _ node [] met (.start .sqlite) nested

end PipeSql
