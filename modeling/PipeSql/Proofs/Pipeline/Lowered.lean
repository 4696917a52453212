import PipeSql.Proofs.Pipeline.OfScript
import PipeSql.Proofs.Statement.Grouping

set_option autoImplicit false

namespace PipeSql

open Clause

theorem Condition.are_writable_append (before after : List (Condition Column)) :
    areWritable (before ++ after) = (areWritable before && areWritable after) := by
  induction before with
  | nil => rfl
  | cons first rest ih => cases first <;> simp [areWritable, ih, Bool.and_assoc]

theorem Column.are_writable_append (before after : List Column) :
    areWritable (before ++ after) = (areWritable before && areWritable after) := by
  induction before with
  | nil => rfl
  | cons first rest ih => simp [areWritable, ih, Bool.and_assoc]

-- What a stage can become behind the table `current`.
inductive Step.Lowered (current : Option String) : Step Node → Prop where
  | join (table : Table) (condition : Option String) (joinType : String) :
      Lowered current (.join table ⟨current.getD "", table.name, condition, joinType⟩)
  | filter {conditions : List (Condition Column)} (formula : IsFormula conditions)
      (writable : Condition.areWritable conditions = true) : Lowered current (.filter conditions)
  | select {columns : List Column} (writable : Column.areWritable columns = true) : Lowered current (.select columns)
  | selectDistinct {columns : List Column} (writable : Column.areWritable columns = true) :
      Lowered current (.selectDistinct columns)
  | groupBy {columns : List Column} (writable : Column.areWritable columns = true) : Lowered current (.groupBy columns)
  | orderBy (items : List OrderItem) : Lowered current (.orderBy items)
  | having (condition : String) : Lowered current (.having condition)
  | limit (count : String) : Lowered current (.limit count)
  | offset (count : String) : Lowered current (.offset count)
  | union (query : String) : Lowered current (.union query)
  | unionAll (query : String) : Lowered current (.unionAll query)
  | insert (table : String) : Lowered current (.insert table [])

-- The steps of a pipe, each behind the table that came in last before it.
inductive Stage.Chain : Option String → List (Step Node) → Prop where
  | nil (current : Option String) : Chain current []
  | cons {current : Option String} {step : Step Node} {rest : List (Step Node)} (first : step.Lowered current)
      (others : Chain (Stage.tableAfter current step) rest) : Chain current (step :: rest)

inductive Node.Lowered : Node → Prop where
  | table (name : String) : Lowered (.table name)
  | pipeline {base : Node} {steps : List (Step Node)} (source : base.Lowered)
      (chain : Stage.Chain base.lastTable? steps) : Lowered (.pipeline (.source base :: steps))

namespace Lowering

variable {α β : Type} {scope : Scope} {holds : α → Prop} {follows : β → Prop}

-- Every value that the lowering can give in the scope is as it should be.
def Gives (scope : Scope) (holds : α → Prop) (lowering : Lowering α) : Prop :=
  ∀ parameters value met, lowering scope parameters = .ok (value, met) → holds value

theorem gives_pure {value : α} (right : holds value) : Gives scope holds (pure value) := by
  intro parameters other met done
  cases done
  exact right

theorem gives_refuse {misuse : Misuse} {span : Span} : Gives scope holds (refuse misuse span : Lowering α) := by
  intro parameters value met done
  cases done

theorem gives_bind {first : Lowering α} {next : α → Lowering β} (begun : Gives scope holds first)
    (ended : ∀ value, holds value → Gives scope follows (next value)) : Gives scope follows (first >>= next) := by
  intro parameters result met done
  obtain ⟨value, between, firstDone, nextDone⟩ := bind_ok done
  exact ended value (begun parameters value between firstDone) between result met nextDone

theorem gives_map {first : Lowering α} {next : α → β} (begun : Gives scope holds first)
    (ended : ∀ value, holds value → follows (next value)) : Gives scope follows (do return next (← first)) :=
  gives_bind begun fun value right => gives_pure (ended value right)

theorem gives_any (lowering : Lowering α) : Gives scope (fun _ => True) lowering :=
  fun _ _ _ _ => trivial

-- Names stand for lowered nodes.
def Scope.Lowered (scope : Scope) : Prop :=
  ∀ name, (scope.node name).Lowered

theorem Scope.start_lowered (dialect : Dialect) (rows : List String) : Scope.Lowered ⟨dialect, [], rows⟩ :=
  fun name => .table name

theorem Scope.bound_lowered (lowered : scope.Lowered) (name : String) {node : Node} (nodeLowered : node.Lowered) :
    Scope.Lowered { scope with bound := (name, node) :: scope.bound } := by
  intro other
  rw [scope.node_bound]
  split
  · exact nodeLowered
  · exact lowered other

end Lowering

open Lowering

namespace Term

variable {scope : Scope} {queryText : QueryText}

theorem named_column_writable (parts : List String) : (namedColumn parts).isWritable = true := by
  unfold namedColumn
  split <;> rfl

theorem operand_column_writable (term : Term) :
    Gives scope (fun column => column.isWritable = true) (term.operandColumn queryText) := by
  have written : Gives scope (fun column : Column => column.isWritable = true)
      (do return .ofText (← term.text queryText)) := gives_map (gives_any _) fun _ _ => rfl
  cases term with
  | ident span name => exact gives_pure rfl
  | qualified span parts => exact gives_map (gives_any _) fun _ _ => named_column_writable _
  | _ => exact written

def IsLeaf (condition : Condition Column) : Prop :=
  IsOperand [condition] ∧ Condition.areWritable [condition] = true

theorem comparison_leaf {column : Column} (writable : column.isWritable = true) (operator : Comparison)
    (right : String) : IsLeaf (.comparison column operator right) := by
  refine ⟨.comparison column operator right, ?_⟩
  simp [Condition.areWritable, writable]

theorem expression_leaf (text : String) : IsLeaf (.expression text) :=
  ⟨.expression text, rfl⟩

theorem condition_leaf (term : Term) : Gives scope IsLeaf (term.condition queryText) := by
  have written : Gives scope IsLeaf (do return .expression (← term.text queryText)) :=
    gives_map (gives_any _) fun text _ => expression_leaf text
  have compared : ∀ (operand : Term) (value : Lowering String) (operator : Comparison),
      Gives scope IsLeaf (do
        let column ← operand.operandColumn queryText
        return .comparison column operator (← value)) := by
    intro operand value operator
    refine gives_bind (operand_column_writable operand) fun column writable => ?_
    exact gives_map (gives_any value) fun right _ => comparison_leaf writable operator right
  cases term with
  | binary span op left right =>
    unfold condition
    by_cases comparison : op.isComparison = true
    · simp only [comparison, if_true]
      exact gives_bind (gives_any _) fun _ _ => compared left (right.text queryText) (comparisonOf op)
    · simp only [comparison]
      exact written
  | isNull span operand negated =>
    exact gives_map (operand_column_writable operand) fun column writable => comparison_leaf writable _ ""
  | inList span operand items negated =>
    cases negated with
    | false => exact compared operand (entriesText queryText items (texts queryText items)) .in
    | true => exact written
  | like span operand pattern negated =>
    cases negated with
    | false => exact compared operand (pattern.text queryText) .like
    | true => exact written
  | _ => exact written

-- What a filter can be lowered to.
def IsClause (conditions : List (Condition Column)) : Prop :=
  IsFormula conditions ∧ Condition.areWritable conditions = true

theorem clause_connected {before after : List (Condition Column)} (connective : Connective) (left : IsClause before)
    (right : IsClause after) : IsClause (before ++ .connective connective :: after) := by
  refine ⟨formula_connected connective left.1 right.1, ?_⟩
  simp [Condition.are_writable_append, Condition.areWritable, left.2, right.2]

theorem clause_enclosed {conditions : List (Condition Column)} (inner : IsClause conditions) :
    IsClause (.opening :: conditions ++ [.closing]) := by
  refine ⟨formula_enclosed inner.1, ?_⟩
  simp [Condition.are_writable_append, Condition.areWritable, inner.2]

theorem conditions_clause (term : Term) : Gives scope IsClause (term.conditions queryText) := by
  induction term using parts_induction with
  | step term ih =>
    have single : Gives scope IsClause (do return [← term.condition queryText]) :=
      gives_map (condition_leaf term) fun _ leaf => ⟨.operand leaf.1, leaf.2⟩
    cases term with
    | binary span op left right =>
      have connected : ∀ connective : Connective, Gives scope IsClause (do
          let before ← left.conditions queryText
          let after ← right.conditions queryText
          return before ++ .connective connective :: after) := by
        intro connective
        refine gives_bind (ih left (.head _)) fun before leftClause => ?_
        exact gives_map (ih right (.tail _ (.head _))) fun after rightClause =>
          clause_connected connective leftClause rightClause
      cases op with
      | and => exact connected .and
      | or => exact connected .or
      | _ => exact single
    | paren span inner => exact gives_map (ih inner (.head _)) fun _ clause => clause_enclosed clause
    | _ => exact single

theorem column_writable (term : Term) :
    Gives scope (fun column => column.isWritable = true) (term.column queryText) := by
  induction term using parts_induction with
  | step term ih =>
    have written : Gives scope (fun column : Column => column.isWritable = true)
        (do return .ofText (← term.text queryText)) := gives_map (gives_any _) fun _ _ => rfl
    cases term with
    | aliased span inner label =>
      refine gives_map (ih inner (.head _)) fun column writable => ?_
      cases column <;> exact writable
    | wildcard | ident => exact gives_pure rfl
    | qualified span parts => exact gives_pure (named_column_writable parts)
    | pipe | lambda | named | ordered => exact gives_refuse
    | _ => exact written

theorem columns_writable (terms : List Term) :
    Gives scope (fun columns => Column.areWritable columns = true) (columns queryText terms) := by
  induction terms with
  | nil => exact gives_pure rfl
  | cons term rest ih =>
    refine gives_bind (column_writable term) fun first writable => ?_
    refine gives_map ih fun others othersWritable => ?_
    simp [Column.areWritable, writable, othersWritable]

end Term

namespace Stage

variable {scope : Scope} {queryText : QueryText}

theorem join_lowered (current : Option String) (joinType : String) (stage : Stage) :
    Gives scope (Step.Lowered current) (stage.join queryText current joinType) := by
  refine gives_bind (gives_any _) fun table _ => ?_
  have joins : ∀ condition, Step.Lowered current (.join table ⟨current.getD "", table.name, condition, joinType⟩) :=
    fun condition => .join table condition joinType
  cases named? "on" stage.args with
  | some term => exact gives_map (gives_any _) fun condition _ => joins condition
  | none =>
    by_cases cross : joinType = "CROSS"
    · simp only [if_pos cross]
      exact gives_pure (joins none)
    · simp only [if_neg cross]
      exact gives_map (gives_any _) fun condition _ => joins condition

theorem filter_conditions_clause (term : Term) : Gives scope Term.IsClause (filterConditions queryText term) := by
  have enclosed : ∀ conditions, Term.IsClause conditions → Term.IsClause
      (if Condition.hasLooseOr conditions then .opening :: conditions ++ [.closing] else conditions) := by
    intro conditions clause
    by_cases loose : Condition.hasLooseOr conditions = true
    · rw [if_pos loose]
      exact Term.clause_enclosed clause
    · rw [if_neg loose]
      exact clause
  have plain := gives_map (@Term.conditions_clause scope queryText term) enclosed
  cases term with
  | lambda span params body =>
    have inner : Gives scope Term.IsClause (withRows params (body.conditions queryText)) :=
      @Term.conditions_clause { scope with rows := scope.rows ++ params } queryText body
    exact gives_map inner enclosed
  | _ => exact plain

theorem step_lowered (current : Option String) (stage : Stage) :
    Gives scope (Step.Lowered current) (stage.step queryText current) := by
  have columns := @Term.columns_writable scope queryText stage.args
  unfold Stage.step
  cases Operation.ofName? stage.name with
  | none => exact gives_refuse
  | some operation =>
    cases operation with
    | innerJoin => exact join_lowered current "INNER" stage
    | leftJoin => exact join_lowered current "LEFT" stage
    | crossJoin => exact join_lowered current "CROSS" stage
    | filter =>
      refine gives_bind (gives_any _) fun arg _ => ?_
      exact gives_map (filter_conditions_clause arg) fun _ clause => .filter clause.1 clause.2
    | select => exact gives_map columns fun _ writable => .select writable
    | selectDistinct => exact gives_map columns fun _ writable => .selectDistinct writable
    | groupBy => exact gives_map columns fun _ writable => .groupBy writable
    | orderBy => exact gives_map (gives_any _) fun items _ => .orderBy items
    | having => exact gives_bind (gives_any _) fun _ _ => gives_map (gives_any _) fun text _ => .having text
    | limit => exact gives_bind (gives_any _) fun _ _ => gives_map (gives_any _) fun text _ => .limit text
    | offset => exact gives_bind (gives_any _) fun _ _ => gives_map (gives_any _) fun text _ => .offset text
    | union => exact gives_map (gives_any _) fun query _ => .union query
    | unionAll => exact gives_map (gives_any _) fun query _ => .unionAll query
    | insert => exact gives_map (gives_any _) fun table _ => .insert table.name

theorem steps_chain (current : Option String) (stages : List Term) :
    Gives scope (Chain current) (steps queryText current stages) := by
  induction stages generalizing current with
  | nil => exact gives_pure (.nil current)
  | cons term rest ih =>
    rw [steps]
    cases ofTerm? term with
    | none => exact gives_refuse
    | some stage =>
      refine gives_bind (step_lowered current stage) fun first firstLowered => ?_
      exact gives_map (ih (tableAfter current first)) fun _ others => .cons firstLowered others

theorem through_lowered {base : Node} (lowered : base.Lowered) (stages : List Term) :
    Gives scope Node.Lowered (through queryText base stages) := by
  cases stages with
  | nil => exact gives_pure lowered
  | cons first rest =>
    exact gives_map (steps_chain base.lastTable? (first :: rest)) fun _ chain => .pipeline lowered chain

end Stage

section

variable {scope : Scope} {queryText : QueryText}

theorem Term.source_lowered (names : scope.Lowered) (term : Term) :
    Gives scope Node.Lowered (term.source queryText) := by
  induction term using parts_induction with
  | step term ih =>
    cases term with
    | ident span name =>
      intro parameters node met done
      cases done
      exact names name
    | paren span inner => exact ih inner (.head _)
    | pipe span source stages =>
      exact gives_bind (ih source (.head _)) fun _ lowered => Stage.through_lowered lowered stages
    | _ => exact gives_refuse

theorem Pipe.node_with_lowered (names : scope.Lowered) (pipe : Pipe) :
    Gives scope Node.Lowered (pipe.nodeWith queryText) :=
  gives_bind (Term.source_lowered names pipe.source) fun _ lowered => Stage.through_lowered lowered pipe.stages

theorem Plan.last_node_lowered (names : scope.Lowered) (statement : ScriptStatement) (rest : List ScriptStatement) :
    Gives scope Node.Lowered (lastNode statement rest) := by
  induction rest generalizing statement scope with
  | nil =>
    have node : Gives scope Node.Lowered statement.pipe.node := Pipe.node_with_lowered names statement.pipe
    cases statement <;> exact node
  | cons next rest ih =>
    cases statement with
    | bind name span value =>
      refine gives_bind (Pipe.node_with_lowered names value) fun node lowered => ?_
      -- the statements behind are lowered in the scope with the name
      exact ih (Scope.bound_lowered names name lowered) next
    | query value => exact gives_bind (gives_any _) fun _ _ => ih names next

theorem Plan.root_lowered {dialect : Dialect} {script : Script} {plan : Plan}
    (planned : ofScript dialect script = .ok plan) : plan.root.Lowered :=
  last_node_lowered (Scope.start_lowered dialect []) script.first script.others [] plan.root plan.parameters
    (of_script_ok planned)

end

end PipeSql
