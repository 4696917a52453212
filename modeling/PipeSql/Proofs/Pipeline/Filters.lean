import PipeSql.Proofs.Pipeline.OfScript
import PipeSql.Proofs.Script.Grammar
import PipeSql.Proofs.Statement.Reading

set_option autoImplicit false

namespace PipeSql

open Lowering Clause

namespace Node

mutual

-- In the order in which they are added to a statement.
def filters : Node → List (List (Condition Column))
  | .table _ => []
  | .pipeline steps => stepsFilters steps

def stepsFilters : List (Step Node) → List (List (Condition Column))
  | [] => []
  | step :: rest => stepFilters step ++ stepsFilters rest

def stepFilters : Step Node → List (List (Condition Column))
  | .source node => filters node
  | .filter conditions => [conditions]
  | _ => []

end

mutual

theorem add_to_conditions (statement : Statement) :
    (node : Node) → (node.addTo statement).conditions = node.filters.foldl conjoin statement.conditions
  | .table _ => rfl
  | .pipeline steps => add_steps_conditions statement steps

theorem add_steps_conditions (statement : Statement) :
    (steps : List (Step Node)) →
      (addSteps statement steps).conditions = (stepsFilters steps).foldl conjoin statement.conditions
  | [] => rfl
  | step :: rest => by
    rw [addSteps, stepsFilters, List.foldl_append, add_steps_conditions _ rest, add_step_conditions statement step]

theorem add_step_conditions (statement : Statement) :
    (step : Step Node) →
      (addStep statement step).conditions = (stepFilters step).foldl conjoin statement.conditions
  | .source node => add_to_conditions statement node
  | .filter _ | .join .. | .select _ | .selectDistinct _ | .groupBy _ | .orderBy _ | .having _ | .limit _ | .offset _
  | .union _ | .unionAll _ | .insert .. => rfl

end

end Node

namespace Term

def token? (scope : Scope) (term : Term) : Option (Condition Column) :=
  match term.condition (Pipe.textWithin term.height) scope [] with
  | .ok (condition, _) => some condition
  | .error _ => none

-- What is no connective and no parenthesis is as true as the token it becomes.
def holds? (valuation : Condition Column → Bool) (scope : Scope) : Term → Option Bool
  | .binary _ .and left right => do
    return (← left.holds? valuation scope) && (← right.holds? valuation scope)
  | .binary _ .or left right => do
    return (← left.holds? valuation scope) || (← right.holds? valuation scope)
  | .paren _ inner => inner.holds? valuation scope
  | term => (term.token? scope).map valuation

end Term

structure Filter where
  scope : Scope
  body : Term

def Filter.holds? (valuation : Condition Column → Bool) (filter : Filter) : Option Bool :=
  match filter.body with
  | .lambda _ params body =>
    body.holds? valuation { filter.scope with rows := filter.scope.rows ++ params }
  | body => body.holds? valuation filter.scope

def Stage.filter? (scope : Scope) (term : Term) : Option Filter :=
  match Stage.ofTerm? term with
  | none => none
  | some stage =>
    match Operation.ofName? stage.name, stage.args with
    | some .filter, [body] => some ⟨scope, body⟩
    | _, _ => none

def Term.filters (scope : Scope) (known : String → List Filter) : Term → List Filter
  | .ident _ name => known name
  | .paren _ inner => inner.filters scope known
  | .pipe _ source stages => source.filters scope known ++ stages.filterMap (Stage.filter? scope)
  | _ => []

def Pipe.filters (scope : Scope) (known : String → List Filter) (pipe : Pipe) : List Filter :=
  pipe.source.filters scope known ++ pipe.stages.filterMap (Stage.filter? scope)

def Script.filtersFrom (scope : Scope) (known : String → List Filter) :
    ScriptStatement → List ScriptStatement → List Filter
  | statement, [] => statement.pipe.filters scope known
  | .bind name _ value, next :: rest =>
    match value.node scope [] with
    | .ok (node, _) =>
      filtersFrom { scope with bound := (name, node) :: scope.bound }
        (fun other => if name == other then value.filters scope known else known other) next rest
    | .error _ => []
  | .query _, next :: rest => filtersFrom scope known next rest

def Script.filters (dialect : Dialect) (script : Script) : List Filter :=
  filtersFrom ⟨dialect, [], []⟩ (fun _ => []) script.first script.others

namespace Likeness

theorem column_like_eq {left right : Column} (like : equality.ColumnLike left right) : left = right := by
  cases like with
  | named => rfl
  | expression left right label same labelLike => exact congrArg (Column.expression · label) same
  | wildcard => rfl

theorem condition_like_eq {left right : Condition Column} (like : equality.ConditionLike left right) : left = right := by
  cases like with
  | comparison left other operator right last columnLike same =>
    rw [column_like_eq columnLike, show right = last from same]
  | expression left right same => exact congrArg Condition.expression same
  | connective | opening | closing => rfl

end Likeness

namespace Term

theorem condition_reads (queryText : QueryText) (term : Term) {scope : Scope} {parameters met : List Parameter}
    {condition : Condition Column} (lowered : term.condition queryText scope parameters = .ok (condition, met)) :
    Reads [condition] [[.leaf condition]] := by
  have phrase : (do return .expression (← term.text queryText) : Lowering (Condition Column)) scope parameters =
      .ok (condition, met) → Reads [condition] [[.leaf condition]] := by
    intro done
    obtain ⟨text, _, rfl⟩ := map_ok done
    exact reads_expression text
  cases term with
  | binary span op left right =>
    rw [Term.condition] at lowered
    split at lowered
    · obtain ⟨_, _, _, lowered⟩ := bind_ok lowered
      obtain ⟨column, _, _, lowered⟩ := bind_ok lowered
      obtain ⟨value, _, rfl⟩ := map_ok lowered
      exact reads_comparison column _ value
    · exact phrase lowered
  | isNull span operand negated =>
    obtain ⟨column, _, rfl⟩ := map_ok lowered
    exact reads_comparison column _ _
  | inList span operand items negated =>
    cases negated with
    | true => exact phrase lowered
    | false =>
      obtain ⟨column, _, _, lowered⟩ := bind_ok lowered
      obtain ⟨entries, _, rfl⟩ := map_ok lowered
      exact reads_comparison column _ entries
  | like span operand pattern negated =>
    cases negated with
    | true => exact phrase lowered
    | false =>
      obtain ⟨column, _, _, lowered⟩ := bind_ok lowered
      obtain ⟨entries, _, rfl⟩ := map_ok lowered
      exact reads_comparison column _ entries
  | _ => exact phrase lowered

theorem token_of_lowered {scope actual : Scope} (like : Likeness.equality.ScopeLike scope actual) {depth : Nat}
    (term : Term) (formed : term.WellFormed) (small : term.height ≤ depth) {parameters met : List Parameter}
    {condition : Condition Column}
    (lowered : term.condition (Pipe.textWithin depth) actual parameters = .ok (condition, met)) :
    term.token? scope = some condition := by
  have queries : QueriesCoupled .equality id term.height (Pipe.textWithin term.height) (Pipe.textWithin depth) :=
    Pipe.queries_coupled term.height _ _ (by omega)
  have agree := coupled_condition queries term formed (Nat.le_refl _) scope actual like [] parameters
  change Agree _ _ ((term.mapped id id).condition (Pipe.textWithin depth) actual parameters) at agree
  rw [mapped_id, lowered] at agree
  unfold token?
  match term.condition (Pipe.textWithin term.height) scope [], agree with
  | .ok (token, _), agree => exact congrArg some (Likeness.condition_like_eq agree)

-- Only an OR gives more than one alternative.
def ReadAs (scope : Scope) (conditions : List (Condition Column)) (term : Term) : Prop :=
  ∃ alternatives, Reads conditions alternatives ∧ (term.level ≠ 1 → ∃ factors, alternatives = [factors]) ∧
    ∀ valuation, term.holds? valuation scope = some (Proposition.anyHolds valuation alternatives)

theorem leaf_read {scope : Scope} {condition : Condition Column} {term : Term}
    (holds : ∀ valuation, term.holds? valuation scope = (term.token? scope).map valuation)
    (token : term.token? scope = some condition) (reads : Reads [condition] [[.leaf condition]]) :
    ReadAs scope [condition] term := by
  refine ⟨_, reads, fun _ => ⟨_, rfl⟩, fun valuation => ?_⟩
  rw [holds, token, Proposition.any_holds_singleton, Proposition.all_hold_singleton]
  rfl

theorem and_read {scope : Scope} {before after : List (Condition Column)} {span : Span} {left right : Term}
    (formed : (Term.binary span .and left right).WellFormed) (leftRead : ReadAs scope before left)
    (rightRead : ReadAs scope after right) :
    ReadAs scope (before ++ .and :: after) (.binary span .and left right) := by
  obtain ⟨_, leftReads, leftSingle, leftHolds⟩ := leftRead
  obtain ⟨_, rightReads, rightSingle, rightHolds⟩ := rightRead
  obtain ⟨leftLevel, rightLevel, -, -⟩ := formed
  change 2 ≤ left.level at leftLevel
  change 2 < right.level at rightLevel
  -- An OR on either side would be of the first level, which the grammar keeps out.
  obtain ⟨first, rfl⟩ := leftSingle (by omega)
  obtain ⟨second, rfl⟩ := rightSingle (by omega)
  refine ⟨_, reads_and leftReads rightReads, fun _ => ⟨_, rfl⟩, fun valuation => ?_⟩
  rw [holds?, leftHolds, rightHolds]
  simp only [Proposition.any_holds_singleton, Proposition.all_hold_append]
  rfl

theorem or_read {scope : Scope} {before after : List (Condition Column)} {span : Span} {left right : Term}
    (leftRead : ReadAs scope before left) (rightRead : ReadAs scope after right) :
    ReadAs scope (before ++ .or :: after) (.binary span .or left right) := by
  obtain ⟨_, leftReads, -, leftHolds⟩ := leftRead
  obtain ⟨_, rightReads, -, rightHolds⟩ := rightRead
  refine ⟨_, reads_or leftReads rightReads, fun other => absurd rfl other, fun valuation => ?_⟩
  rw [holds?, leftHolds, rightHolds, Proposition.any_holds_append]
  rfl

theorem paren_read {scope : Scope} {conditions : List (Condition Column)} {span : Span} {inner : Term}
    (read : ReadAs scope conditions inner) :
    ReadAs scope (.opening :: conditions ++ [.closing]) (.paren span inner) := by
  obtain ⟨_, reads, -, holds⟩ := read
  refine ⟨_, reads_paren reads, fun _ => ⟨_, rfl⟩, fun valuation => ?_⟩
  rw [holds?, holds, Proposition.any_holds_singleton, Proposition.all_hold_singleton]
  rfl

theorem conditions_read {scope actual : Scope} (like : Likeness.equality.ScopeLike scope actual) {depth : Nat}
    (term : Term) (formed : term.WellFormed) (small : term.height ≤ depth) {parameters met : List Parameter}
    {conditions : List (Condition Column)}
    (lowered : term.conditions (Pipe.textWithin depth) actual parameters = .ok (conditions, met)) :
    ReadAs scope conditions term := by
  induction term using parts_induction generalizing parameters met conditions with
  | step term ih =>
    have inner : ∀ part ∈ term.parts, ∀ (parameters met : List Parameter) (conditions : List (Condition Column)),
        part.conditions (Pipe.textWithin depth) actual parameters = .ok (conditions, met) →
        ReadAs scope conditions part := by
      intro part member parameters met conditions lowered
      have lower := part_height term part member
      exact ih part member (part_well_formed term part formed member) (by omega) lowered
    have leaf : (∀ valuation, term.holds? valuation scope = (term.token? scope).map valuation) →
        (do return [← term.condition (Pipe.textWithin depth)] : Lowering (List (Condition Column))) actual parameters =
          .ok (conditions, met) → ReadAs scope conditions term := by
      intro holds lowered
      obtain ⟨condition, single, rfl⟩ := map_ok lowered
      exact leaf_read holds (token_of_lowered like term formed small single) (condition_reads _ term single)
    cases term with
    | binary span op left right =>
      cases op with
      | and =>
        obtain ⟨before, _, leftLowered, lowered⟩ := bind_ok lowered
        obtain ⟨after, rightLowered, rfl⟩ := map_ok lowered
        exact and_read formed (inner left (.head _) _ _ _ leftLowered)
          (inner right (.tail _ (.head _)) _ _ _ rightLowered)
      | or =>
        obtain ⟨before, _, leftLowered, lowered⟩ := bind_ok lowered
        obtain ⟨after, rightLowered, rfl⟩ := map_ok lowered
        exact or_read (inner left (.head _) _ _ _ leftLowered) (inner right (.tail _ (.head _)) _ _ _ rightLowered)
      | _ => exact leaf (fun _ => rfl) lowered
    | paren span inside =>
      obtain ⟨within, insideLowered, rfl⟩ := map_ok lowered
      exact paren_read (inner inside (.head _) _ _ _ insideLowered)
    | _ => exact leaf (fun _ => rfl) lowered

theorem enclosed_read {scope : Scope} {conditions : List (Condition Column)} {term : Term}
    (read : ReadAs scope conditions term) :
    ∃ factors,
      Reads (if Condition.hasLooseOr conditions then .opening :: conditions ++ [.closing] else conditions) [factors] ∧
        ∀ valuation, term.holds? valuation scope = some (Proposition.allHold valuation factors) := by
  obtain ⟨alternatives, reads, -, holds⟩ := read
  have loose : Condition.hasLooseOr conditions = decide (1 < alternatives.length) := by
    have from_reading := reads.loose 0 []
    simpa [Condition.hasLooseOr, Condition.looseOrFrom] using from_reading
  by_cases several : 1 < alternatives.length
  · rw [loose, decide_eq_true several, if_pos rfl]
    refine ⟨_, reads_paren reads, fun valuation => ?_⟩
    rw [holds, Proposition.all_hold_singleton]
    rfl
  · have some_read := List.length_pos_iff.2 reads.nonempty
    obtain ⟨factors, rfl⟩ := List.length_eq_one_iff.1 (show alternatives.length = 1 by omega)
    rw [loose, decide_eq_false several, if_neg (by simp)]
    refine ⟨factors, reads, fun valuation => ?_⟩
    rw [holds, Proposition.any_holds_singleton]

end Term

-- Lowered somewhere, in a scope that is like its own.
def Filter.LowersTo (filter : Filter) (conditions : List (Condition Column)) : Prop :=
  ∃ actual depth parameters met, Likeness.equality.ScopeLike filter.scope actual ∧ filter.body.WellFormed ∧
    filter.body.height ≤ depth ∧
    Stage.filterConditions (Pipe.textWithin depth) filter.body actual parameters = .ok (conditions, met)

theorem Filter.lowered_read {filter : Filter} {conditions : List (Condition Column)}
    (lowers : filter.LowersTo conditions) :
    ∃ factors, Reads conditions [factors] ∧
      ∀ valuation, filter.holds? valuation = some (Proposition.allHold valuation factors) := by
  obtain ⟨scope, body⟩ := filter
  obtain ⟨actual, depth, parameters, met, like, formed, small, lowered⟩ := lowers
  have plain : (do
      let conditions ← body.conditions (Pipe.textWithin depth)
      return if Condition.hasLooseOr conditions then .opening :: conditions ++ [.closing] else conditions :
        Lowering (List (Condition Column))) actual parameters = .ok (conditions, met) →
      ∃ factors, Reads conditions [factors] ∧
        ∀ valuation, body.holds? valuation scope = some (Proposition.allHold valuation factors) := by
    intro lowered
    obtain ⟨inside, single, rfl⟩ := map_ok lowered
    exact Term.enclosed_read (Term.conditions_read like body formed small single)
  cases body with
  | lambda span params body =>
    have lower := Term.part_height (.lambda span params body) body (.head _)
    obtain ⟨inside, single, rfl⟩ := map_ok lowered
    have rows : Likeness.equality.ScopeLike { scope with rows := scope.rows ++ params }
        { actual with rows := actual.rows ++ params } :=
      ⟨like.dialect, like.bound, congrArg (· ++ params) like.rows⟩
    exact Term.enclosed_read (Term.conditions_read rows body formed.2.2.2 (Nat.le_trans (Nat.le_of_lt lower) small) single)
  | _ => exact plain lowered

namespace Stage

theorem only_argument_ok {stage : Stage} {arg : Term} {scope : Scope} {parameters met : List Parameter}
    (done : stage.onlyArgument scope parameters = .ok (arg, met)) : stage.args = [arg] := by
  unfold onlyArgument at done
  match stage.args, done with
  | [_], done =>
    cases done
    rfl

theorem join_filters {queryText : QueryText} {current : Option String} {joinType : String} {stage : Stage}
    {scope : Scope} {parameters met : List Parameter} {step : Step Node}
    (lowered : stage.join queryText current joinType scope parameters = .ok (step, met)) : Node.stepFilters step = [] := by
  obtain ⟨table, _, _, lowered⟩ := bind_ok lowered
  cases found : named? "on" stage.args with
  | some term =>
    rw [found] at lowered
    obtain ⟨_, _, rfl⟩ := map_ok lowered
    rfl
  | none =>
    rw [found] at lowered
    by_cases cross : joinType = "CROSS"
    · simp only [if_pos cross] at lowered
      obtain ⟨_, _, rfl⟩ := map_ok lowered
      rfl
    · simp only [if_neg cross] at lowered
      obtain ⟨_, _, refused, _⟩ := bind_ok lowered
      cases refused

theorem step_filters {scope actual : Scope} (like : Likeness.equality.ScopeLike scope actual) {depth : Nat}
    {term : Term} {stage : Stage} (found : ofTerm? term = some stage) (formed : term.WellFormed)
    (small : term.height ≤ depth) {current : Option String} {parameters met : List Parameter} {step : Step Node}
    (lowered : stage.step (Pipe.textWithin depth) current actual parameters = .ok (step, met)) :
    List.Forall₂ Filter.LowersTo (Stage.filter? scope term).toList (Node.stepFilters step) := by
  unfold Stage.filter?
  rw [found]
  dsimp only
  unfold Stage.step at lowered
  cases named : Operation.ofName? stage.name with
  | none =>
    rw [named] at lowered
    cases lowered
  | some operation =>
    rw [named] at lowered
    cases operation with
    | filter =>
      obtain ⟨arg, _, only, lowered⟩ := bind_ok lowered
      obtain ⟨conditions, single, rfl⟩ := map_ok lowered
      obtain ⟨argsFormed, lower⟩ := stage_args term stage formed found
      rw [only_argument_ok only] at argsFormed lower ⊢
      have listed := Term.height_le_heights arg [arg] (.head _)
      exact .cons ⟨actual, depth, _, _, like, argsFormed arg (.head _), by dsimp only; omega, single⟩ .nil
    | innerJoin | leftJoin | crossJoin =>
      rw [join_filters lowered]
      exact .nil
    | select | selectDistinct | groupBy | orderBy | union | unionAll | insert =>
      obtain ⟨_, _, rfl⟩ := map_ok lowered
      exact .nil
    | having | limit | offset =>
      obtain ⟨_, _, _, lowered⟩ := bind_ok lowered
      obtain ⟨_, _, rfl⟩ := map_ok lowered
      exact .nil

theorem steps_filters {scope actual : Scope} (like : Likeness.equality.ScopeLike scope actual) {depth : Nat}
    (stages : List Term) (formed : ∀ stage ∈ stages, stage.WellFormed) (small : Term.heights stages ≤ depth)
    {current : Option String} {parameters met : List Parameter} {lowered : List (Step Node)}
    (done : steps (Pipe.textWithin depth) current stages actual parameters = .ok (lowered, met)) :
    List.Forall₂ Filter.LowersTo (stages.filterMap (Stage.filter? scope)) (Node.stepsFilters lowered) := by
  induction stages generalizing current parameters lowered with
  | nil =>
    cases done
    exact .nil
  | cons term rest ih =>
    rw [Term.heights] at small
    rw [steps] at done
    cases found : ofTerm? term with
    | none =>
      rw [found] at done
      cases done
    | some stage =>
      rw [found] at done
      obtain ⟨first, _, stepped, done⟩ := bind_ok done
      obtain ⟨others, followed, rfl⟩ := map_ok done
      have head := step_filters like found (formed term (.head _)) (by omega) stepped
      have tail := ih (fun stage member => formed stage (.tail _ member)) (by omega) followed
      have split : (term :: rest).filterMap (Stage.filter? scope) =
          (Stage.filter? scope term).toList ++ rest.filterMap (Stage.filter? scope) := by
        rw [List.filterMap_cons]
        cases Stage.filter? scope term <;> rfl
      rw [split, Node.stepsFilters]
      exact List.rel_append head tail

theorem through_filters {scope actual : Scope} (like : Likeness.equality.ScopeLike scope actual) {depth : Nat}
    {known : List Filter} {base node : Node} (stages : List Term) (formed : ∀ stage ∈ stages, stage.WellFormed)
    (small : Term.heights stages ≤ depth) (before : List.Forall₂ Filter.LowersTo known base.filters)
    {parameters met : List Parameter}
    (done : through (Pipe.textWithin depth) base stages actual parameters = .ok (node, met)) :
    List.Forall₂ Filter.LowersTo (known ++ stages.filterMap (Stage.filter? scope)) node.filters := by
  cases stages with
  | nil =>
    cases done
    rwa [List.filterMap_nil, List.append_nil]
  | cons first rest =>
    obtain ⟨lowered, stepped, rfl⟩ := map_ok done
    exact List.rel_append before (steps_filters like (first :: rest) formed small stepped)

end Stage

-- What is known of the filters of names is what the names stand for in a scope.
def Filter.Known (known : String → List Filter) (actual : Scope) : Prop :=
  ∀ name, List.Forall₂ Filter.LowersTo (known name) (actual.node name).filters

section

variable {scope actual : Scope} {known : String → List Filter} {parameters met : List Parameter} {node : Node}

theorem Term.source_filters (like : Likeness.equality.ScopeLike scope actual) (knows : Filter.Known known actual)
    {depth : Nat} (term : Term) (formed : term.WellFormed) (small : term.height ≤ depth)
    (done : term.source (Pipe.textWithin depth) actual parameters = .ok (node, met)) :
    List.Forall₂ Filter.LowersTo (term.filters scope known) node.filters := by
  induction term using Term.parts_induction generalizing parameters met node with
  | step term ih =>
    cases term with
    | ident span name =>
      cases done
      exact knows name
    | paren span inner =>
      have lower := Term.part_height (.paren span inner) inner (.head _)
      exact ih inner (.head _) formed.2 (by omega) done
    | pipe span source stages =>
      have lower := Term.part_height (.pipe span source stages) source (.head _)
      rw [Term.height] at small
      obtain ⟨base, _, sourced, done⟩ := bind_ok done
      have before := ih source (.head _) formed.2.1 (by omega) sourced
      refine Stage.through_filters like stages (fun stage member => ?_) (by omega) before done
      exact Term.part_well_formed _ stage formed (.tail _ member)
    | _ => cases done

theorem Pipe.node_filters (like : Likeness.equality.ScopeLike scope actual) (knows : Filter.Known known actual)
    (pipe : Pipe) (formed : pipe.WellFormed) (done : pipe.node actual parameters = .ok (node, met)) :
    List.Forall₂ Filter.LowersTo (pipe.filters scope known) node.filters := by
  obtain ⟨base, _, sourced, done⟩ := bind_ok done
  have before := Term.source_filters like knows pipe.source formed.1.2 (Nat.le_max_left _ _) sourced
  exact Stage.through_filters like pipe.stages (fun stage member => (formed.2 stage member).2) (Nat.le_max_right _ _)
    before done

theorem Pipe.node_in_like_scope (like : Likeness.equality.ScopeLike scope actual) (pipe : Pipe)
    (formed : pipe.WellFormed) (done : pipe.node actual parameters = .ok (node, met)) :
    ∃ twin known, pipe.node scope [] = .ok (twin, known) ∧ Likeness.equality.NodeLike twin node := by
  have agree := @Pipe.coupled_node .equality id pipe formed scope actual like [] parameters
  have same : pipe.mapped id id = pipe := by
    rw [Pipe.mapped, Term.mapped_id, Term.mapped_all_id]
  change Agree _ _ ((pipe.mapped id id).node actual parameters) at agree
  rw [same, done] at agree
  cases specified : pipe.node scope [] with
  | error failure =>
    rw [specified] at agree
    exact agree.elim
  | ok result =>
    rw [specified] at agree
    exact ⟨result.1, result.2, rfl, agree⟩

theorem Script.last_node_filters (like : Likeness.equality.ScopeLike scope actual) (knows : Filter.Known known actual)
    (statement : ScriptStatement) (rest : List ScriptStatement)
    (formed : ∀ member ∈ statement :: rest, member.pipe.WellFormed)
    (done : Plan.lastNode statement rest actual parameters = .ok (node, met)) :
    List.Forall₂ Filter.LowersTo (filtersFrom scope known statement rest) node.filters := by
  induction rest generalizing statement scope actual known parameters with
  | nil =>
    have pipeDone : statement.pipe.node actual parameters = .ok (node, met) := by
      cases statement <;> exact done
    have lowered := Pipe.node_filters like knows statement.pipe (formed _ (.head _)) pipeDone
    cases statement <;> exact lowered
  | cons next rest ih =>
    have following : ∀ member ∈ next :: rest, member.pipe.WellFormed := fun member present =>
      formed member (.tail _ present)
    cases statement with
    | query value =>
      obtain ⟨_, _, _, done⟩ := bind_ok done
      exact ih like knows next following done
    | bind name span value =>
      obtain ⟨bound, _, valueDone, done⟩ := bind_ok done
      have valueFormed : value.WellFormed := formed _ (.head _)
      obtain ⟨twin, _, specified, nodes⟩ := Pipe.node_in_like_scope like value valueFormed valueDone
      have lowered := Pipe.node_filters like knows value valueFormed valueDone
      rw [filtersFrom, specified]
      have bindings : Likeness.equality.ScopeLike { scope with bound := (name, twin) :: scope.bound }
          { actual with bound := (name, bound) :: actual.bound } :=
        ⟨like.dialect, .cons ⟨rfl, nodes⟩ like.bound, like.rows⟩
      refine ih bindings ?_ next following done
      intro other
      rw [actual.node_bound]
      beta_reduce
      split
      · exact lowered
      · exact knows other

end

theorem filters_formula {filters : List Filter} {steps : List (List (Condition Column))}
    (lowers : List.Forall₂ Filter.LowersTo filters steps) :
    ∃ formula, formula? (steps.foldl conjoin []) = some formula ∧
      ∀ valuation, ∃ values, filters.mapM (Filter.holds? valuation) = some values ∧
        formula.holds valuation = values.all id := by
  have read : ∃ factors, List.Forall₂ (fun conditions factor => Reads conditions [factor]) steps factors ∧
      ∀ valuation, filters.mapM (Filter.holds? valuation) = some (factors.map (Proposition.allHold valuation)) := by
    induction lowers with
    | nil => exact ⟨[], .nil, fun _ => rfl⟩
    | cons first rest ih =>
      obtain ⟨factor, reads, holds⟩ := Filter.lowered_read first
      obtain ⟨factors, others, values⟩ := ih
      refine ⟨factor :: factors, .cons reads others, fun valuation => ?_⟩
      rw [List.mapM_cons, holds, values]
      rfl
  obtain ⟨factors, reads, values⟩ := read
  refine ⟨_, formula_conjoined reads, fun valuation => ⟨_, values valuation, ?_⟩⟩
  rw [Proposition.holds, Proposition.any_holds_singleton, Proposition.all_hold_flatten]

theorem where_clause_means_all_filters (source : String) (screened : Bool) (script : Script) (dialect : Dialect)
    (plan : Plan) (accepted : Script.read source screened = .ok script)
    (planned : Plan.ofScript dialect script = .ok plan) :
    ∃ formula, formula? plan.statement.conditions = some formula ∧
      ∀ valuation, ∃ values, (script.filters dialect).mapM (Filter.holds? valuation) = some values ∧
        formula.holds valuation = values.all id := by
  have formed := Script.read_well_formed source screened script accepted
  have start : Likeness.equality.ScopeLike ⟨dialect, [], []⟩ ⟨dialect, [], []⟩ := ⟨rfl, .nil, rfl⟩
  have unknown : Filter.Known (fun _ => []) ⟨dialect, [], []⟩ := fun _ => .nil
  have lowers := Script.last_node_filters start unknown script.first script.others formed (Plan.of_script_ok planned)
  obtain ⟨declared, same⟩ := Plan.declared_eq plan.parameters plan.root.statement
  have conditions : plan.statement.conditions = plan.root.filters.foldl conjoin [] := by
    rw [Plan.statement, same]
    exact Node.add_to_conditions .empty plan.root
  rw [conditions]
  exact filters_formula lowers

theorem bound_disjunction_means_all_filters :
    ∃ script plan, Script.read "let a=t|>filter(x or y) a|>filter(z)" false = .ok script ∧
      Plan.ofScript .sqlite script = .ok plan ∧
      ∃ formula, formula? plan.statement.conditions = some formula ∧
        ∀ valuation, ∃ values, (script.filters .sqlite).mapM (Filter.holds? valuation) = some values ∧
          formula.holds valuation = values.all id := by
  have tokens : tokenize "let a=t|>filter(x or y) a|>filter(z)" = .ok [⟨.keyword .let, ⟨0, 3⟩⟩, ⟨.ident "a", ⟨4, 5⟩⟩,
      ⟨.symbol .eq, ⟨5, 6⟩⟩, ⟨.ident "t", ⟨6, 7⟩⟩, ⟨.symbol .pipe, ⟨7, 9⟩⟩, ⟨.ident "filter", ⟨9, 15⟩⟩,
      ⟨.symbol .leftParen, ⟨15, 16⟩⟩, ⟨.ident "x", ⟨16, 17⟩⟩, ⟨.keyword .or, ⟨18, 20⟩⟩, ⟨.ident "y", ⟨21, 22⟩⟩,
      ⟨.symbol .rightParen, ⟨22, 23⟩⟩, ⟨.ident "a", ⟨24, 25⟩⟩, ⟨.symbol .pipe, ⟨25, 27⟩⟩, ⟨.ident "filter", ⟨27, 33⟩⟩,
      ⟨.symbol .leftParen, ⟨33, 34⟩⟩, ⟨.ident "z", ⟨34, 35⟩⟩, ⟨.symbol .rightParen, ⟨35, 36⟩⟩] := by decide +kernel
  have accepted : Script.read "let a=t|>filter(x or y) a|>filter(z)" false = .ok
      ⟨.bind "a" ⟨4, 5⟩ ⟨.ident ⟨6, 7⟩ "t", [.call ⟨9, 23⟩ ⟨"filter", ⟨9, 15⟩, false⟩
        [.binary ⟨16, 22⟩ .or (.ident ⟨16, 17⟩ "x") (.ident ⟨21, 22⟩ "y")]]⟩,
        [.query ⟨.ident ⟨24, 25⟩ "a", [.call ⟨27, 36⟩ ⟨"filter", ⟨27, 33⟩, false⟩ [.ident ⟨34, 35⟩ "z"]]⟩]⟩ :=
    Script.read_of_stages tokens (by set_option maxRecDepth 4000 in rfl)
  refine ⟨_, _, accepted, rfl, where_clause_means_all_filters _ false _ .sqlite _ accepted rfl⟩

end PipeSql
