import PipeSql.Proofs.Pipeline.Expression

set_option autoImplicit false

namespace PipeSql

open Lowering

namespace Likeness

variable {likeness : Likeness}

theorem loose_or_like (depth : Nat) {left right : List (Condition Column)}
    (like : List.Forall₂ likeness.ConditionLike left right) :
    Condition.looseOrFrom depth left = Condition.looseOrFrom depth right := by
  induction like generalizing depth with
  | nil => rfl
  | cons first others ih =>
    cases first with
    | comparison | expression => simpa [Condition.looseOrFrom] using ih depth
    | opening => simpa [Condition.looseOrFrom] using ih (depth + 1)
    | closing => simpa [Condition.looseOrFrom] using ih (depth - 1)
    | connective connective =>
      cases connective with
      | and => simpa [Condition.looseOrFrom] using ih depth
      | or =>
        cases depth with
        | zero => rfl
        | succ depth => simpa [Condition.looseOrFrom] using ih (depth + 1)

end Likeness

namespace Stage

variable {likeness : Likeness} {place : Span → Span} {size : Nat} {left right : QueryText}

theorem of_mapped (contents : String → String) (place : Span → Span) (term : Term) :
    ofTerm? (term.mapped contents place) = (ofTerm? term).map (Stage.mapped contents place) := by
  cases term <;> rfl

theorem table_of_mapped (contents : String → String) (place : Span → Span) (term : Term) :
    tableOf? (term.mapped contents place) = tableOf? term := by
  cases term with
  | aliased span inner label => cases inner <;> rfl
  | _ => rfl

theorem named_mapped (contents : String → String) (place : Span → Span) (name : String) (args : List Term) :
    named? name (Term.mappedAll contents place args) = (named? name args).map (Term.mapped contents place) := by
  induction args with
  | nil => rfl
  | cons arg rest ih =>
    cases arg with
    | named span given value =>
      simp only [Term.mappedAll, Term.mapped, named?]
      split
      · rfl
      · exact ih
    | _ => exact ih

theorem named_mem (name : String) (args : List Term) (value : Term) (found : named? name args = some value) :
    ∃ arg ∈ args, value ∈ arg.parts := by
  fun_induction named? name args with
  | case1 => cases found
  | case2 span given inner rest same =>
    cases found
    exact ⟨_, .head _, .head _⟩
  | case3 span given inner rest different ih =>
    obtain ⟨arg, member, part⟩ := ih found
    exact ⟨arg, .tail _ member, part⟩
  | case4 arg rest other ih =>
    obtain ⟨arg, member, part⟩ := ih found
    exact ⟨arg, .tail _ member, part⟩

theorem table_of_like (term : Term) (formed : term.WellFormed) (table : Table) (found : tableOf? term = some table) :
    likeness.Like table.name table.name ∧ likeness.Like table.sql table.sql := by
  cases term with
  | ident span name =>
    cases found
    have like := likeness.plain name (Token.word_quiet _ formed.1)
    exact ⟨like, like⟩
  | qualified span parts =>
    cases found
    have like : likeness.Like (Text.joinWith "." parts) (Text.joinWith "." parts) :=
      likeness.join_with_like "." (by decide) (List.forall₂_same.2 fun part member =>
        likeness.plain part (Token.word_quiet _ (formed.2 part member)))
    exact ⟨like, like⟩
  | aliased span inner label =>
    cases inner with
    | ident inside name =>
      cases found
      have nameLike := likeness.plain name (Token.word_quiet _ formed.2.1.1)
      have labelLike := likeness.plain label (Token.word_quiet _ formed.2.2.1)
      exact ⟨nameLike, likeness.append (likeness.append nameLike (likeness.plain " " (by decide))) labelLike⟩
    | _ => cases found
  | _ => cases found

theorem coupled_table (stage : Stage) (formed : ∀ arg ∈ stage.args, arg.WellFormed) :
    Coupled likeness (fun table other => table = other ∧ likeness.Like table.name table.name ∧
        likeness.Like table.sql table.sql)
      stage.table (stage.mapped likeness.contents place).table := by
  have same : ((stage.mapped likeness.contents place).args.find? fun arg => !arg.isNamed).bind tableOf? =
      (stage.args.find? fun arg => !arg.isNamed).bind tableOf? := by
    simp only [Stage.mapped, Term.mapped_all, List.find?_map, Option.bind_map, Function.comp_def, Term.mapped_named,
      table_of_mapped]
  unfold Stage.table
  rw [same]
  cases found : (stage.args.find? fun arg => !arg.isNamed).bind tableOf? with
  | none => exact coupled_refuse
  | some table =>
    obtain ⟨arg, first, named⟩ := Option.bind_eq_some_iff.1 found
    exact coupled_pure ⟨rfl, table_of_like arg (formed arg (List.mem_of_find?_eq_some first)) table named⟩

theorem coupled_argument {α β : Type} {related : α → β → Prop} (stage : Stage) {lower : Term → Lowering α}
    {twin : Term → Lowering β}
    (each : ∀ arg ∈ stage.args, Coupled likeness related (lower arg) (twin (arg.mapped likeness.contents place))) :
    Coupled likeness related (do lower (← stage.onlyArgument))
      (do twin (← (stage.mapped likeness.contents place).onlyArgument)) := by
  unfold onlyArgument Stage.mapped
  cases given : stage.args with
  | nil => exact fun _ _ _ _ _ => trivial
  | cons first rest =>
    cases rest with
    | nil => exact each first (given ▸ .head _)
    | cons second rest => exact fun _ _ _ _ _ => trivial

theorem coupled_join (queries : Term.QueriesCoupled likeness place size left right) (current : Option String)
    (joinType : String) (stage : Stage) (formed : ∀ arg ∈ stage.args, arg.WellFormed)
    (small : Term.heights stage.args ≤ size) (free : '\'' ∉ (Join.keywords joinType).toList) :
    Coupled likeness likeness.StepLike (stage.join left current joinType)
      ((stage.mapped likeness.contents place).join right current joinType) := by
  refine coupled_bind (coupled_table stage formed) ?_
  rintro table _ ⟨rfl, nameLike, tableLike⟩
  have joins : ∀ {condition other : Option String}, Option.Rel likeness.Like condition other →
      likeness.StepLike (.join table ⟨current.getD "", table.name, condition, joinType⟩)
        (.join table ⟨current.getD "", table.name, other, joinType⟩) := by
    intro condition other conditionLike
    refine ⟨rfl, fun _ => rfl, fun _ _ like => ?_⟩
    exact Likeness.add_join_like like table tableLike ⟨rfl, conditionLike, likeness.plain _ free⟩
  dsimp only [Stage.mapped]
  rw [named_mapped]
  cases found : named? "on" stage.args with
  | none =>
    simp only [Option.map_none]
    split
    · exact coupled_pure (joins .none)
    · exact fun _ _ _ _ _ => trivial
  | some term =>
    obtain ⟨arg, member, part⟩ := named_mem "on" stage.args term found
    have lower := Term.part_height arg term part
    have listed := Term.height_le_heights arg stage.args member
    have body := Term.coupled_body queries term (Term.part_well_formed arg term (formed arg member) part) (by omega)
    exact coupled_map (coupled_map body fun _ _ like => Option.Rel.some like) fun _ _ like => joins like

theorem coupled_filter (queries : Term.QueriesCoupled likeness place size left right) (term : Term)
    (formed : term.WellFormed) (small : term.height ≤ size) :
    Coupled likeness (List.Forall₂ likeness.ConditionLike) (filterConditions left term)
      (filterConditions right (term.mapped likeness.contents place)) := by
  have enclosed : ∀ {conditions others : List (Condition Column)},
      List.Forall₂ likeness.ConditionLike conditions others → List.Forall₂ likeness.ConditionLike
        (if Condition.hasLooseOr conditions then .opening :: conditions ++ [.closing] else conditions)
        (if Condition.hasLooseOr others then .opening :: others ++ [.closing] else others) := by
    intro conditions others like
    rw [Condition.hasLooseOr, Condition.hasLooseOr, Likeness.loose_or_like 0 like]
    split
    · exact .cons .opening (List.rel_append like (.cons .closing .nil))
    · exact like
  have plain := coupled_map (Term.coupled_conditions queries term formed small) fun _ _ like => enclosed like
  cases term with
  | lambda span params body =>
    have lower := Term.part_height (.lambda span params body) body (.head _)
    have inner := coupled_with_rows params (Term.coupled_conditions queries body formed.2.2.2 (by omega))
    exact coupled_map inner fun _ _ like => enclosed like
  | _ => exact plain

theorem coupled_count (queries : Term.QueriesCoupled likeness place size left right) (term : Term)
    (formed : term.WellFormed) (small : term.height ≤ size) :
    Coupled likeness likeness.Like (count left term) (count right (term.mapped likeness.contents place)) := by
  have plain := Term.coupled_text queries term formed small
  cases term with
  | param span name => exact coupled_bind coupled_declare fun _ _ _ => plain
  | _ => exact plain

theorem coupled_union (queries : Term.QueriesCoupled likeness place size left right) (stage : Stage)
    (formed : ∀ arg ∈ stage.args, arg.WellFormed) (small : Term.heights stage.args < size) :
    Coupled likeness likeness.Like (stage.unionQuery left) ((stage.mapped likeness.contents place).unionQuery right) := by
  refine coupled_argument stage fun term member => ?_
  have listed := Term.height_le_heights term stage.args member
  have query := queries term [] (by simp only [Pipe.height, Term.heights]; omega)
    fun part present => (List.mem_singleton.1 present) ▸ formed term member
  cases term with
  | ident | paren | pipe => exact query
  | _ => exact coupled_refuse

theorem coupled_step (queries : Term.QueriesCoupled likeness place size left right) (current : Option String)
    (stage : Stage) (formed : ∀ arg ∈ stage.args, arg.WellFormed) (small : Term.heights stage.args < size) :
    Coupled likeness likeness.StepLike (stage.step left current)
      ((stage.mapped likeness.contents place).step right current) := by
  have below : ∀ arg ∈ stage.args, arg.height ≤ size := by
    intro arg member
    have listed := Term.height_le_heights arg stage.args member
    omega
  have name : (stage.mapped likeness.contents place).name = stage.name := rfl
  have columns := Term.coupled_columns queries stage.args formed (by omega)
  unfold Stage.step
  rw [name]
  cases Operation.ofName? stage.name with
  | none => exact coupled_refuse
  | some operation =>
    cases operation with
    | innerJoin => exact coupled_join queries current "INNER" stage formed (by omega) (by decide)
    | leftJoin => exact coupled_join queries current "LEFT" stage formed (by omega) (by decide)
    | crossJoin => exact coupled_join queries current "CROSS" stage formed (by omega) (by decide)
    | filter =>
      refine coupled_argument stage fun arg member => ?_
      refine coupled_map (coupled_filter queries arg (formed arg member) (below arg member)) fun _ _ conditions => ?_
      exact ⟨rfl, fun _ => rfl, fun _ _ like => Likeness.restrict_like like conditions⟩
    | having =>
      refine coupled_argument stage fun arg member => ?_
      refine coupled_map (Term.coupled_body queries arg (formed arg member) (below arg member)) fun _ _ text => ?_
      exact ⟨rfl, fun _ => rfl, fun _ _ like => { like with having := .some text }⟩
    | select =>
      refine coupled_map columns fun _ _ columnsLike => ?_
      exact ⟨rfl, fun _ => rfl, fun _ _ like => Likeness.project_like like false columnsLike⟩
    | selectDistinct =>
      refine coupled_map columns fun _ _ columnsLike => ?_
      exact ⟨rfl, fun _ => rfl, fun _ _ like => Likeness.project_like like true columnsLike⟩
    | groupBy =>
      refine coupled_map columns fun _ _ columnsLike => ?_
      exact ⟨rfl, fun _ => rfl, fun _ _ like => Likeness.group_on_like like columnsLike⟩
    | orderBy =>
      refine coupled_map (Term.coupled_order_items queries stage.args formed (by omega)) fun _ _ items => ?_
      exact ⟨rfl, fun _ => rfl, fun _ _ like => Likeness.order_on_like like items⟩
    | limit =>
      refine coupled_argument stage fun arg member => ?_
      refine coupled_map (coupled_count queries arg (formed arg member) (below arg member)) fun _ _ text => ?_
      exact ⟨rfl, fun _ => rfl, fun _ _ like => { like with limit := .some text }⟩
    | offset =>
      refine coupled_argument stage fun arg member => ?_
      refine coupled_map (coupled_count queries arg (formed arg member) (below arg member)) fun _ _ text => ?_
      exact ⟨rfl, fun _ => rfl, fun _ _ like => { like with offset := .some text }⟩
    | union =>
      refine coupled_map (coupled_union queries stage formed small) fun _ _ query => ?_
      exact ⟨rfl, fun _ => rfl, fun _ _ like => Likeness.add_union_like like false query⟩
    | unionAll =>
      refine coupled_map (coupled_union queries stage formed small) fun _ _ query => ?_
      exact ⟨rfl, fun _ => rfl, fun _ _ like => Likeness.add_union_like like true query⟩
    | insert =>
      refine coupled_map (coupled_table stage formed) ?_
      rintro table _ ⟨rfl, nameLike, _⟩
      refine ⟨rfl, fun _ => rfl, fun _ _ like => { like with insert := rfl, insertLike := ?_ }⟩
      rintro _ ⟨⟩
      exact ⟨nameLike, rfl⟩

theorem stage_args (term : Term) (stage : Stage) (formed : term.WellFormed) (found : ofTerm? term = some stage) :
    (∀ arg ∈ stage.args, arg.WellFormed) ∧ Term.heights stage.args < term.height := by
  cases term with
  | call span head args =>
    cases found
    refine ⟨fun arg member => Term.part_well_formed _ arg formed member, ?_⟩
    dsimp only
    rw [Term.height]
    omega
  | windowed span head args partitionBy orderBy =>
    cases found
    refine ⟨fun arg member => Term.part_well_formed _ arg formed ?_, ?_⟩
    · exact List.mem_append_left _ (List.mem_append_left _ member)
    · dsimp only
      rw [Term.height]
      omega
  | _ => cases found

theorem coupled_steps (queries : Term.QueriesCoupled likeness place size left right) (current : Option String)
    (stages : List Term) (formed : ∀ stage ∈ stages, stage.WellFormed) (small : Term.heights stages ≤ size) :
    Coupled likeness (List.Forall₂ likeness.StepLike) (steps left current stages)
      (steps right current (Term.mappedAll likeness.contents place stages)) := by
  induction stages generalizing current with
  | nil => exact coupled_pure .nil
  | cons term rest ih =>
    rw [Term.heights] at small
    rw [Term.mappedAll, steps, steps, of_mapped]
    cases found : ofTerm? term with
    | none => exact coupled_refuse
    | some stage =>
      obtain ⟨args, lower⟩ := stage_args term stage (formed term (.head _)) found
      refine coupled_bind (coupled_step queries current stage args (by omega)) fun first second firstLike => ?_
      rw [firstLike.after current]
      refine coupled_map (ih _ (fun other member => formed other (.tail _ member)) (by omega)) fun _ _ othersLike => ?_
      exact .cons firstLike othersLike

theorem coupled_through (queries : Term.QueriesCoupled likeness place size left right) {base other : Node}
    (nodes : likeness.NodeLike base other) (stages : List Term) (formed : ∀ stage ∈ stages, stage.WellFormed)
    (small : Term.heights stages ≤ size) :
    Coupled likeness likeness.NodeLike (through left base stages)
      (through right other (Term.mappedAll likeness.contents place stages)) := by
  have steps := coupled_steps queries base.lastTable? stages formed small
  cases stages with
  | nil => exact coupled_pure nodes
  | cons first rest =>
    rw [Term.mappedAll] at steps ⊢
    unfold through
    rw [← nodes.table]
    exact coupled_map steps fun _ _ like => Likeness.pipeline_like (.cons (Likeness.source_step_like nodes) like)

end Stage

namespace Pipe

variable {likeness : Likeness} {place : Span → Span} {size : Nat} {left right : QueryText}

theorem coupled_source (queries : Term.QueriesCoupled likeness place size left right) (term : Term)
    (formed : term.WellFormed) (small : term.height ≤ size) :
    Coupled likeness likeness.NodeLike (term.source left) ((term.mapped likeness.contents place).source right) := by
  induction term using Term.parts_induction with
  | step term ih =>
    cases term with
    | ident span name =>
      refine coupled_map coupled_read fun _ _ like => ?_
      exact Likeness.scope_node_like like (likeness.plain name (Token.word_quiet _ formed.1))
    | paren span inner =>
      have lower := Term.part_height (.paren span inner) inner (.head _)
      exact ih inner (.head _) formed.2 (by omega)
    | pipe span source stages =>
      have lower := Term.part_height (.pipe span source stages) source (.head _)
      rw [Term.height] at small
      refine coupled_bind (ih source (.head _) formed.2.1 (by omega)) fun _ _ nodes => ?_
      refine Stage.coupled_through queries nodes stages (fun stage member => ?_) (by omega)
      exact Term.part_well_formed _ stage formed (.tail _ member)
    | _ => exact coupled_refuse

theorem coupled_node_with (queries : Term.QueriesCoupled likeness place size left right) (pipe : Pipe)
    (formed : ∀ term ∈ pipe.source :: pipe.stages, term.WellFormed) (small : pipe.height ≤ size) :
    Coupled likeness likeness.NodeLike (pipe.nodeWith left) ((pipe.mapped likeness.contents place).nodeWith right) := by
  unfold Pipe.height at small
  refine coupled_bind (coupled_source queries pipe.source (formed _ (.head _)) (by omega)) fun _ _ nodes => ?_
  exact Stage.coupled_through queries nodes pipe.stages (fun stage member => formed stage (.tail _ member)) (by omega)

-- A query is lower than the terms that it stands in, so each level of nesting uses up one level of height. Queries
-- that nest too deeply are refused on both sides.
theorem queries_coupled (size depth other : Nat) (same : min size depth = min size other) :
    Term.QueriesCoupled likeness place size (textWithin depth) (textWithin other) := by
  induction size generalizing depth other with
  | zero => exact fun _ _ low => absurd low (Nat.not_lt_zero _)
  | succ size ih =>
    intro source stages low formed
    match depth, other with
    | 0, 0 => exact coupled_refuse
    | 0, other + 1 => omega
    | depth + 1, 0 => omega
    | depth + 1, other + 1 =>
      have nested := ih depth other (by omega)
      exact coupled_bind (coupled_node_with nested ⟨source, stages⟩ formed (by omega)) fun _ _ nodes =>
        coupled_write_node nodes

theorem coupled_node (pipe : Pipe) (formed : pipe.WellFormed) :
    Coupled likeness likeness.NodeLike pipe.node (pipe.mapped likeness.contents place).node := by
  have same : (pipe.mapped likeness.contents place).height = pipe.height := by
    simp only [Pipe.height, Pipe.mapped, Term.mapped_height, Term.mapped_heights]
  unfold Pipe.node
  rw [same]
  refine coupled_node_with (queries_coupled pipe.height _ _ rfl) pipe ?_ (Nat.le_refl _)
  intro term member
  rcases List.mem_cons.1 member with rfl | member
  · exact formed.1.2
  · exact (formed.2 term member).2

end Pipe

namespace Plan

variable {likeness : Likeness} {place : Span → Span}

theorem coupled_last_node (statement : ScriptStatement) (rest : List ScriptStatement)
    (formed : ∀ member ∈ statement :: rest, member.pipe.WellFormed) :
    Coupled likeness likeness.NodeLike (lastNode statement rest)
      (lastNode (statement.mapped likeness.contents place) (rest.map (ScriptStatement.mapped likeness.contents place))) := by
  induction rest generalizing statement with
  | nil =>
    have node := @Pipe.coupled_node likeness place statement.pipe (formed _ (.head _))
    cases statement with
    | bind name span value => exact node
    | query value => exact node
  | cons next rest ih =>
    have node := @Pipe.coupled_node likeness place statement.pipe (formed _ (.head _))
    have following := ih next fun member present => formed member (.tail _ present)
    cases statement with
    | bind name span value => exact coupled_bind node fun _ _ nodes => coupled_with_binding name nodes following
    | query value => exact coupled_bind node fun _ _ _ => following

theorem of_script_eq (dialect : Dialect) (script : Script) :
    ofScript dialect script =
      (lastNode script.first script.others ⟨dialect, [], []⟩ []).map fun result => ⟨result.1, result.2⟩ := by
  unfold ofScript
  change (lastNode script.first script.others ⟨dialect, [], []⟩ []).bind _ = _
  cases lastNode script.first script.others ⟨dialect, [], []⟩ [] <;> rfl

theorem of_script_ok {dialect : Dialect} {script : Script} {plan : Plan} (planned : ofScript dialect script = .ok plan) :
    lastNode script.first script.others ⟨dialect, [], []⟩ [] = .ok (plan.root, plan.parameters) := by
  rw [of_script_eq] at planned
  match lastNode script.first script.others ⟨dialect, [], []⟩ [], planned with
  | .ok (root, parameters), planned =>
    cases planned
    rfl

theorem declared_eq (parameters : List Parameter) (statement : Statement) :
    ∃ declared, parameters.foldl Statement.declare statement = { statement with parameters := declared } := by
  induction parameters generalizing statement with
  | nil => exact ⟨statement.parameters, rfl⟩
  | cons parameter rest ih =>
    obtain ⟨declared, same⟩ := ih (statement.declare parameter)
    refine ⟨declared, ?_⟩
    rw [List.foldl_cons, same]
    unfold Statement.declare
    split <;> rfl

end Plan

end PipeSql
