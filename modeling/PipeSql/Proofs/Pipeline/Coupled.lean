import PipeSql.Pipeline.OfScript
import PipeSql.Proofs.Statement.Likeness

set_option autoImplicit false

namespace PipeSql

namespace Likeness

variable {likeness : Likeness} {left right : Statement}

theorem empty_like : likeness.StatementLike .empty .empty where
  columns := .nil
  tables := rfl
  tableLike := nofun
  joins := .nil
  conditions := .nil
  groupBy := .nil
  orderBy := .nil
  having := .none
  limit := .none
  offset := .none
  distinct := rfl
  unions := .nil
  insert := rfl
  insertLike := nofun

theorem with_base_like (like : likeness.StatementLike left right) (table : Table)
    (tableLike : likeness.Like table.sql table.sql) :
    likeness.StatementLike (left.withBase table) (right.withBase table) :=
  { like with
    tables := by rw [Statement.withBase, Statement.withBase, like.tables]
    tableLike := by
      intro other member
      rcases List.mem_cons.1 member with rfl | member
      · exact tableLike
      · exact like.tableLike other (List.mem_of_mem_tail member) }

theorem add_join_like (like : likeness.StatementLike left right) (table : Table) {join other : Join}
    (tableLike : likeness.Like table.sql table.sql) (joinLike : likeness.JoinLike join other) :
    likeness.StatementLike (left.addJoin table join) (right.addJoin table other) :=
  { like with
    tables := by rw [Statement.addJoin, Statement.addJoin, like.tables]
    tableLike := by
      intro known member
      rcases List.mem_append.1 member with member | member
      · exact like.tableLike known member
      · rw [List.mem_singleton.1 member]
        exact tableLike
    joins := List.rel_append like.joins (.cons joinLike .nil) }

theorem project_like (like : likeness.StatementLike left right) (distinct : Bool) {columns others : List Column}
    (columnsLike : List.Forall₂ likeness.ColumnLike columns others) :
    likeness.StatementLike (left.project columns distinct) (right.project others distinct) :=
  { like with columns := columnsLike, distinct := rfl }

theorem restrict_like (like : likeness.StatementLike left right) {conditions others : List (Condition Column)}
    (conditionsLike : List.Forall₂ likeness.ConditionLike conditions others) :
    likeness.StatementLike (left.restrict conditions) (right.restrict others) := by
  refine { like with conditions := ?_ }
  unfold Statement.restrict
  refine List.rel_append like.conditions ?_
  have known := like.conditions
  generalize left.conditions = before at known ⊢
  generalize right.conditions = after at known ⊢
  cases known with
  | nil => exact conditionsLike
  | cons first rest => exact .cons (.connective .and) conditionsLike

theorem group_on_like (like : likeness.StatementLike left right) {columns others : List Column}
    (columnsLike : List.Forall₂ likeness.ColumnLike columns others) :
    likeness.StatementLike (left.groupOn columns) (right.groupOn others) :=
  { like with groupBy := List.rel_append like.groupBy columnsLike }

theorem order_on_like (like : likeness.StatementLike left right) {items others : List OrderItem}
    (itemsLike : List.Forall₂ likeness.OrderLike items others) :
    likeness.StatementLike (left.orderOn items) (right.orderOn others) :=
  { like with orderBy := List.rel_append like.orderBy itemsLike }

theorem add_union_like (like : likeness.StatementLike left right) (all : Bool) {query other : String}
    (queryLike : likeness.Like query other) :
    likeness.StatementLike (left.addUnion ⟨query, all⟩) (right.addUnion ⟨other, all⟩) :=
  { like with unions := List.rel_append like.unions (.cons ⟨rfl, queryLike⟩ .nil) }

variable (likeness)

-- Nodes are compared by what they add to statements; how they are made does not matter.
structure NodeLike (left right : Node) : Prop where
  table : left.lastTable? = right.lastTable?
  adds : ∀ first second, likeness.StatementLike first second →
    likeness.StatementLike (left.addTo first) (right.addTo second)

structure StepLike (left right : Step Node) : Prop where
  table : Node.stepTable? left = Node.stepTable? right
  after : ∀ current, Stage.tableAfter current left = Stage.tableAfter current right
  adds : ∀ first second, likeness.StatementLike first second →
    likeness.StatementLike (Node.addStep first left) (Node.addStep second right)

structure ScopeLike (left right : Lowering.Scope) : Prop where
  dialect : left.dialect = right.dialect
  bound : List.Forall₂ (fun entry other => entry.1 = other.1 ∧ likeness.NodeLike entry.2 other.2) left.bound right.bound
  rows : left.rows = right.rows

variable {likeness}

theorem table_node_like {name : String} (like : likeness.Like name name) :
    likeness.NodeLike (.table name) (.table name) where
  table := rfl
  adds _ _ statements := by
    rw [Node.addTo, Node.addTo]
    exact with_base_like statements (.named name) like

theorem source_step_like {left right : Node} (like : likeness.NodeLike left right) :
    likeness.StepLike (.source left) (.source right) where
  table := by rw [Node.stepTable?, Node.stepTable?, like.table]
  after _ := rfl
  adds := like.adds

theorem pipeline_like {left right : List (Step Node)} (like : List.Forall₂ likeness.StepLike left right) :
    likeness.NodeLike (.pipeline left) (.pipeline right) where
  table := by
    rw [Node.lastTable?, Node.lastTable?]
    induction like with
    | nil => rfl
    | cons first others ih => rw [Node.stepsLastTable?, Node.stepsLastTable?, ih, first.table]
  adds := by
    simp only [Node.addTo]
    induction like with
    | nil => exact fun _ _ statements => statements
    | cons first others ih =>
      intro before after statements
      rw [Node.addSteps, Node.addSteps]
      exact ih _ _ (first.adds before after statements)

theorem scope_node_like {left right : Lowering.Scope} (like : likeness.ScopeLike left right) {name : String}
    (nameLike : likeness.Like name name) : likeness.NodeLike (left.node name) (right.node name) := by
  have bound := like.bound
  unfold Lowering.Scope.node
  generalize left.bound = entries at bound ⊢
  generalize right.bound = others at bound ⊢
  induction bound with
  | nil => exact table_node_like nameLike
  | @cons entry other entries others first rest ih =>
    rw [List.find?_cons, List.find?_cons, first.1]
    by_cases same : (other.1 == name) = true
    · rw [same]
      exact first.2
    · rw [Bool.not_eq_true] at same
      rw [same]
      exact ih

end Likeness

namespace Lowering

variable {α β γ δ : Type}

theorem bind_ok {first : Lowering α} {next : α → Lowering β} {scope : Scope} {parameters met : List Parameter}
    {result : β} (done : (first >>= next) scope parameters = .ok (result, met)) :
    ∃ value between, first scope parameters = .ok (value, between) ∧ next value scope between = .ok (result, met) := by
  change (first scope parameters).bind (fun pair => next pair.1 scope pair.2) = .ok (result, met) at done
  match first scope parameters, done with
  | .ok (value, between), done => exact ⟨value, between, rfl, done⟩

theorem map_ok {first : Lowering α} {next : α → β} {scope : Scope} {parameters met : List Parameter} {result : β}
    (done : (do return next (← first) : Lowering β) scope parameters = .ok (result, met)) :
    ∃ value, first scope parameters = .ok (value, met) ∧ result = next value := by
  obtain ⟨value, between, begun, ended⟩ := bind_ok done
  cases ended
  exact ⟨value, begun, rfl⟩

-- Both runs fail, or both succeed with related values.
def Agree (related : α → β → Prop) :
    Except Failure (α × List Parameter) → Except Failure (β × List Parameter) → Prop
  | .ok (left, _), .ok (right, _) => related left right
  | .error _, .error _ => True
  | _, _ => False

def Coupled (likeness : Likeness) (related : α → β → Prop) (left : Lowering α) (right : Lowering β) : Prop :=
  ∀ scope other, likeness.ScopeLike scope other → ∀ parameters known,
    Agree related (left scope parameters) (right other known)

variable {likeness : Likeness} {related : α → β → Prop} {follows : γ → δ → Prop}

theorem coupled_pure {left : α} {right : β} (relate : related left right) :
    Coupled likeness related (pure left) (pure right) :=
  fun _ _ _ _ _ => relate

theorem coupled_bind {left : Lowering α} {right : Lowering β} {next : α → Lowering γ} {after : β → Lowering δ}
    (first : Coupled likeness related left right)
    (second : ∀ value other, related value other → Coupled likeness follows (next value) (after other)) :
    Coupled likeness follows (left >>= next) (right >>= after) := by
  intro scope other like parameters known
  have agree := first scope other like parameters known
  change Agree follows ((left scope parameters).bind fun result => next result.1 scope result.2)
    ((right other known).bind fun result => after result.1 other result.2)
  generalize left scope parameters = leftResult at agree ⊢
  generalize right other known = rightResult at agree ⊢
  match leftResult, rightResult with
  | .ok (value, met), .ok (counterpart, seen) => exact second value counterpart agree scope other like met seen
  | .error _, .error _ => trivial
  | .ok _, .error _ => exact agree.elim
  | .error _, .ok _ => exact agree.elim

theorem coupled_map {left : Lowering α} {right : Lowering β} {next : α → γ} {after : β → δ}
    (first : Coupled likeness related left right)
    (second : ∀ value other, related value other → follows (next value) (after other)) :
    Coupled likeness follows (do return next (← left)) (do return after (← right)) :=
  coupled_bind first fun value other relate => coupled_pure (second value other relate)

theorem coupled_refuse {misuse wrong : Misuse} {span place : Span} :
    Coupled likeness related (refuse misuse span) (refuse wrong place) :=
  fun _ _ _ _ _ => trivial

theorem coupled_declare {name other sqlType known : String} :
    Coupled likeness (fun _ _ => True) (declare name sqlType) (declare other known) :=
  fun _ _ _ _ _ => trivial

theorem coupled_read : Coupled likeness likeness.ScopeLike read read :=
  fun _ _ like _ _ => like

theorem coupled_with_rows (names : List String) {left : Lowering α} {right : Lowering β}
    (inner : Coupled likeness related left right) :
    Coupled likeness related (withRows names left) (withRows names right) := by
  intro scope other like parameters known
  exact inner { scope with rows := scope.rows ++ names } { other with rows := other.rows ++ names }
    ⟨like.dialect, like.bound, congrArg (· ++ names) like.rows⟩ parameters known

theorem coupled_with_binding (name : String) {node twin : Node} (nodes : likeness.NodeLike node twin)
    {left : Lowering α} {right : Lowering β} (inner : Coupled likeness related left right) :
    Coupled likeness related (withBinding name node left) (withBinding name twin right) := by
  intro scope other like parameters known
  exact inner { scope with bound := (name, node) :: scope.bound } { other with bound := (name, twin) :: other.bound }
    ⟨like.dialect, .cons ⟨rfl, nodes⟩ like.bound, like.rows⟩ parameters known

theorem coupled_write_node {node other : Node} (nodes : likeness.NodeLike node other) :
    Coupled likeness likeness.Like (writeNode node) (writeNode other) := by
  have statements := nodes.adds _ _ Likeness.empty_like
  refine coupled_bind coupled_read ?_
  intro scope twin like
  unfold Node.write Statement.write
  rw [like.dialect, Node.statement, Node.statement, Likeness.writable_like statements]
  by_cases writable : Statement.isWritable (other.addTo .empty) = true
  · rw [if_pos writable, if_pos writable]
    exact coupled_pure (Likeness.sql_like twin.dialect true statements)
  · rw [if_neg writable, if_neg writable]
    exact fun _ _ _ _ _ => trivial

end Lowering

end PipeSql
