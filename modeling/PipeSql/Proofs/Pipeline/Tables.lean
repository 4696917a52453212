import PipeSql.Proofs.Pipeline.Joins

set_option autoImplicit false

namespace PipeSql

open Lowering

def Operation.isJoin : Operation → Bool
  | .innerJoin | .leftJoin | .crossJoin => true
  | _ => false

namespace Stage

-- The table that the arguments give.
def table? (stage : Stage) : Option Table :=
  (stage.args.find? fun arg => !arg.isNamed).bind tableOf?

-- The table that a stage joins.
def joined? (stage : Stage) : Option Table :=
  if (Operation.ofName? stage.name).any Operation.isJoin then stage.table? else none

end Stage

-- The tables that the stages of a pipe join.
def Term.joinedTables (stages : List Term) : List Table :=
  stages.filterMap fun term => (Stage.ofTerm? term).bind Stage.joined?

-- What names stand for, the latest binding first. A name that is not bound is a table.
def boundTables (bound : List (String × List Table)) (name : String) : List Table :=
  match bound.find? fun entry => entry.1 == name with
  | some (_, tables) => tables
  | none => [.named name]

theorem bound_tables_cons (name : String) (tables : List Table) (bound : List (String × List Table)) (asked : String) :
    boundTables ((name, tables) :: bound) asked = if name == asked then tables else boundTables bound asked := by
  unfold boundTables
  rw [List.find?_cons]
  cases name == asked <;> rfl

-- The tables of a source: its base and those joined to it.
def Term.tables (bound : List (String × List Table)) : Term → List Table
  | .ident _ name => boundTables bound name
  | .paren _ inner => inner.tables bound
  | .pipe _ source stages => source.tables bound ++ joinedTables stages
  | _ => []

def Pipe.tables (bound : List (String × List Table)) (pipe : Pipe) : List Table :=
  pipe.source.tables bound ++ Term.joinedTables pipe.stages

namespace Script

-- The tables of the last statement.
def lastTables (bound : List (String × List Table)) : ScriptStatement → List ScriptStatement → List Table
  | statement, [] => statement.pipe.tables bound
  | .bind name _ value, next :: rest => lastTables ((name, value.tables bound) :: bound) next rest
  | .query _, next :: rest => lastTables bound next rest

def tables (script : Script) : List Table :=
  lastTables [] script.first script.others

end Script

namespace Join

-- Each join goes from one table to the next.
structure Links (tables : List Table) (joins : List Join) : Prop where
  count : tables.length = joins.length + 1
  sides : ∀ (i : Nat) (join : Join), joins[i]? = some join →
    tables[i]?.map Table.name = some join.left ∧ tables[i + 1]?.map Table.name = some join.right

theorem links_single (table : Table) : Links [table] [] where
  count := rfl
  sides i join listed := by cases listed

theorem links_snoc {tables : List Table} {joins : List Join} {join : Join} {table : Table} (linked : Links tables joins)
    (left : tables.getLast?.map Table.name = some join.left) (right : join.right = table.name) :
    Links (tables ++ [table]) (joins ++ [join]) where
  count := by simp [linked.count]
  sides i other listed := by
    have count := linked.count
    by_cases inside : i < joins.length
    · rw [List.getElem?_append_left inside] at listed
      rw [List.getElem?_append_left (by omega), List.getElem?_append_left (by omega)]
      exact linked.sides i other listed
    · obtain ⟨position, rfl⟩ : i = joins.length ∧ join = other := by
        rw [List.getElem?_append_right (by omega), List.getElem?_singleton] at listed
        split at listed
        · exact ⟨by omega, Option.some.inj listed⟩
        · cases listed
      rw [List.getLast?_eq_getElem?, count, Nat.add_sub_cancel, ← position] at left
      rw [List.getElem?_append_left (by omega), left, position, ← count, List.getElem?_concat_length, right]
      exact ⟨rfl, rfl⟩

end Join

namespace Node

-- The table that came in last is the last one of the statement, so that a join links on to it.
theorem add_steps_linked {current : Option String} {steps : List (Step Node)} (chain : Stage.Chain current steps)
    {statement : Statement} (linked : Join.Links statement.tables statement.joins)
    (last : statement.tables.getLast?.map Table.name = current) :
    Join.Links (addSteps statement steps).tables (addSteps statement steps).joins ∧
      (addSteps statement steps).tables.getLast?.map Table.name = (stepsLastTable? steps <|> current) := by
  induction chain generalizing statement with
  | nil current => exact ⟨linked, last⟩
  | @cons current step rest first others ih =>
    -- the table of a step counts only if the steps behind it bring in none
    have counted : ∀ brought : Option String, Stage.tableAfter current step = (brought <|> current) →
        stepTable? step = brought →
        (stepsLastTable? rest <|> Stage.tableAfter current step) = (stepsLastTable? (step :: rest) <|> current) := by
      rintro brought after rfl
      rw [after, stepsLastTable?]
      cases stepsLastTable? rest <;> rfl
    cases first with
    | join table condition joinType =>
      rw [← counted (some table.name) rfl rfl]
      have filled : statement.tables ≠ [] := by
        intro empty
        have count := linked.count
        rw [empty] at count
        cases count
      have known : current = some (current.getD "") := by
        rw [← last, List.getLast?_eq_some_getLast filled]
        rfl
      refine ih (Join.links_snoc linked (last.trans known) rfl) ?_
      simp [addStep, Step.apply, Statement.addJoin, Stage.tableAfter]
    | _ =>
      rw [← counted none rfl rfl]
      exact ih linked last

theorem lowered_linked {node : Node} (lowered : node.Lowered) :
    Join.Links node.statement.tables node.statement.joins ∧
      node.statement.tables.getLast?.map Table.name = node.lastTable? := by
  induction lowered with
  | table name => exact ⟨Join.links_single _, rfl⟩
  | @pipeline source steps _ chain ih =>
    obtain ⟨linked, last⟩ := ih
    exact add_steps_linked chain linked last

end Node

section

variable {scope : Scope} {queryText : QueryText}

theorem Lowering.gives_both {α : Type} {lowering : Lowering α} {first second : α → Prop}
    (begun : Gives scope first lowering) (also : Gives scope second lowering) :
    Gives scope (fun value => first value ∧ second value) lowering :=
  fun parameters value met done => ⟨begun parameters value met done, also parameters value met done⟩

namespace Stage

theorem table_given (stage : Stage) : Gives scope (fun table => stage.table? = some table) stage.table := by
  unfold table
  split
  · rename_i given
    exact gives_pure given
  · exact gives_refuse

theorem join_joined (current : Option String) (joinType : String) (stage : Stage) :
    Gives scope (fun step => (Node.stepJoins step).map Prod.fst = stage.table?.toList)
      (stage.join queryText current joinType) := by
  refine gives_bind (table_given stage) fun table given => ?_
  have brought (join : Join) : (Node.stepJoins (.join table join)).map Prod.fst = stage.table?.toList := by
    rw [given]
    rfl
  cases named? "on" stage.args with
  | some term => exact gives_map (gives_any _) fun _ _ => brought _
  | none =>
    by_cases cross : joinType = "CROSS"
    · simp only [if_pos cross]
      exact gives_pure (brought _)
    · simp only [if_neg cross]
      exact gives_map (gives_any _) fun _ _ => brought _

theorem step_joined (current : Option String) (stage : Stage) :
    Gives scope (fun step => (Node.stepJoins step).map Prod.fst = stage.joined?.toList)
      (stage.step queryText current) := by
  unfold Stage.step joined?
  cases Operation.ofName? stage.name with
  | none => exact gives_refuse
  | some operation =>
    cases operation with
    | innerJoin => exact join_joined current "INNER" stage
    | leftJoin => exact join_joined current "LEFT" stage
    | crossJoin => exact join_joined current "CROSS" stage
    | filter | having | limit | offset =>
      exact gives_bind (gives_any _) fun _ _ => gives_map (gives_any _) fun _ _ => rfl
    | select | selectDistinct | groupBy | orderBy | union | unionAll | insert =>
      exact gives_map (gives_any _) fun _ _ => rfl

theorem steps_joined (current : Option String) (stages : List Term) :
    Gives scope (fun steps => (Node.stepsJoins steps).map Prod.fst = Term.joinedTables stages)
      (steps queryText current stages) := by
  induction stages generalizing current with
  | nil => exact gives_pure rfl
  | cons term rest ih =>
    rw [steps]
    cases known : ofTerm? term with
    | none => exact gives_refuse
    | some stage =>
      refine gives_bind (step_joined current stage) fun first brought => ?_
      refine gives_map (ih (tableAfter current first)) fun others behind => ?_
      have split : Term.joinedTables (term :: rest) = stage.joined?.toList ++ Term.joinedTables rest := by
        cases joined : stage.joined? <;> simp [Term.joinedTables, known, joined]
      rw [Node.stepsJoins, List.map_append, brought, behind, split]

theorem through_tables {base : Node} {tables : List Table} (lowered : base.Lowered)
    (start : base.statement.tables = tables) (stages : List Term) :
    Gives scope (fun node => node.Lowered ∧ node.statement.tables = tables ++ Term.joinedTables stages)
      (through queryText base stages) := by
  cases stages with
  | nil =>
    refine gives_pure ⟨lowered, ?_⟩
    rw [start]
    exact (List.append_nil tables).symm
  | cons first rest =>
    have both := gives_both (@steps_chain scope queryText base.lastTable? (first :: rest))
      (@steps_joined scope queryText base.lastTable? (first :: rest))
    refine gives_map both fun steps known => ⟨.pipeline lowered known.1, ?_⟩
    rw [← known.2, ← start]
    exact (Node.add_steps_joined known.1 base.statement).1

end Stage

-- Names stand for nodes of the tables that they are bound to.
def Lowering.Scope.Tabled (scope : Scope) (bound : List (String × List Table)) : Prop :=
  ∀ name, (scope.node name).Lowered ∧ (scope.node name).statement.tables = boundTables bound name

theorem Lowering.Scope.start_tabled (dialect : Dialect) (rows : List String) : Scope.Tabled ⟨dialect, [], rows⟩ [] :=
  fun name => ⟨.table name, rfl⟩

theorem Lowering.Scope.bound_tabled {bound : List (String × List Table)} (tabled : scope.Tabled bound) (name : String)
    {node : Node} (lowered : node.Lowered) :
    Scope.Tabled { scope with bound := (name, node) :: scope.bound } ((name, node.statement.tables) :: bound) := by
  intro other
  rw [scope.node_bound, bound_tables_cons]
  split
  · exact ⟨lowered, rfl⟩
  · exact tabled other

theorem Term.source_tables {bound : List (String × List Table)} (tabled : scope.Tabled bound) (term : Term) :
    Gives scope (fun node => node.Lowered ∧ node.statement.tables = term.tables bound) (term.source queryText) := by
  induction term using parts_induction with
  | step term ih =>
    cases term with
    | ident span name =>
      intro parameters node met done
      cases done
      exact tabled name
    | paren span inner => exact ih inner (.head _)
    | pipe span source stages =>
      exact gives_bind (ih source (.head _)) fun _ known => Stage.through_tables known.1 known.2 stages
    | _ => exact gives_refuse

theorem Pipe.node_tables {bound : List (String × List Table)} (tabled : scope.Tabled bound) (pipe : Pipe) :
    Gives scope (fun node => node.Lowered ∧ node.statement.tables = pipe.tables bound) pipe.node :=
  gives_bind (Term.source_tables tabled pipe.source) fun _ known => Stage.through_tables known.1 known.2 pipe.stages

theorem Plan.last_node_tables {bound : List (String × List Table)} (tabled : scope.Tabled bound)
    (statement : ScriptStatement) (rest : List ScriptStatement) :
    Gives scope (fun node => node.Lowered ∧ node.statement.tables = Script.lastTables bound statement rest)
      (lastNode statement rest) := by
  induction rest generalizing statement scope bound with
  | nil =>
    have node := Pipe.node_tables tabled statement.pipe
    cases statement <;> exact node
  | cons next rest ih =>
    cases statement with
    | bind name span value =>
      refine gives_bind (Pipe.node_tables tabled value) fun node known => ?_
      rw [Script.lastTables, ← known.2]
      -- the statements behind are lowered in the scope with the name
      exact ih (Scope.bound_tabled tabled name known.1) next
    | query value => exact gives_bind (gives_any _) fun _ _ => ih tabled next

end

theorem tables_follow_the_joins (queries : Dialect) (script : Script) (plan : Plan)
    (planned : Plan.ofScript queries script = .ok plan) :
    plan.root.statement.tables = script.tables ∧ (∃ base, script.tables.head? = some (.named base)) ∧
      script.tables.length = plan.root.statement.joins.length + 1 ∧
      ∀ (i : Nat) (join : Join), plan.root.statement.joins[i]? = some join →
        ∃ left right, script.tables[i]? = some left ∧ script.tables[i + 1]? = some right ∧
          join.left = left.name ∧ join.right = right.name := by
  have tabled := Scope.start_tabled queries []
  obtain ⟨lowered, tables⟩ := Plan.last_node_tables tabled script.first script.others [] plan.root plan.parameters
    (Plan.of_script_ok planned)
  obtain ⟨base, -, -, based, -⟩ := Node.add_to_joined lowered
  obtain ⟨linked, -⟩ := Node.lowered_linked lowered
  rw [tables] at based linked
  refine ⟨tables, ⟨base, congrArg List.head? based⟩, linked.count, ?_⟩
  intro i join listed
  obtain ⟨left, right⟩ := linked.sides i join listed
  obtain ⟨first, known, named⟩ := Option.map_eq_some_iff.1 left
  obtain ⟨second, follows, brought⟩ := Option.map_eq_some_iff.1 right
  exact ⟨first, second, known, follows, named.symm, brought.symm⟩

-- A pipe in parentheses that is bound to a name, an alias and a table with a dotted name.
theorem bound_pipe_follows_the_joins :
    ∃ script plan, Script.read "let p=(t|>join(b as x,on=x.i)) p|>cross_join(c.d)" false = .ok script ∧
      Plan.ofScript .sqlite script = .ok plan ∧
      plan.root.statement.tables = [.named "t", ⟨"b", some "x"⟩, .named "c.d"] ∧
      plan.root.statement.joins = [⟨"t", "b", some "x.i", "INNER"⟩, ⟨"b", "c.d", none, "CROSS"⟩] ∧
      ∃ left right, script.tables[1]? = some left ∧ script.tables[2]? = some right ∧
        "b" = left.name ∧ "c.d" = right.name := by
  have tokens : tokenize "let p=(t|>join(b as x,on=x.i)) p|>cross_join(c.d)" = .ok [⟨.keyword .let, ⟨0, 3⟩⟩,
      ⟨.ident "p", ⟨4, 5⟩⟩, ⟨.symbol .eq, ⟨5, 6⟩⟩, ⟨.symbol .leftParen, ⟨6, 7⟩⟩, ⟨.ident "t", ⟨7, 8⟩⟩,
      ⟨.symbol .pipe, ⟨8, 10⟩⟩, ⟨.ident "join", ⟨10, 14⟩⟩, ⟨.symbol .leftParen, ⟨14, 15⟩⟩, ⟨.ident "b", ⟨15, 16⟩⟩,
      ⟨.keyword .as, ⟨17, 19⟩⟩, ⟨.ident "x", ⟨20, 21⟩⟩, ⟨.symbol .comma, ⟨21, 22⟩⟩, ⟨.keyword .on, ⟨22, 24⟩⟩,
      ⟨.symbol .eq, ⟨24, 25⟩⟩, ⟨.qualified ["x", "i"], ⟨25, 28⟩⟩, ⟨.symbol .rightParen, ⟨28, 29⟩⟩,
      ⟨.symbol .rightParen, ⟨29, 30⟩⟩, ⟨.ident "p", ⟨31, 32⟩⟩, ⟨.symbol .pipe, ⟨32, 34⟩⟩,
      ⟨.ident "cross_join", ⟨34, 44⟩⟩, ⟨.symbol .leftParen, ⟨44, 45⟩⟩, ⟨.qualified ["c", "d"], ⟨45, 48⟩⟩,
      ⟨.symbol .rightParen, ⟨48, 49⟩⟩] := by decide +kernel
  have accepted : Script.read "let p=(t|>join(b as x,on=x.i)) p|>cross_join(c.d)" false = .ok
      ⟨.bind "p" ⟨4, 5⟩ ⟨.pipe ⟨6, 30⟩ (.ident ⟨7, 8⟩ "t") [.call ⟨10, 29⟩ ⟨"join", ⟨10, 14⟩, false⟩
        [.aliased ⟨15, 21⟩ (.ident ⟨15, 16⟩ "b") "x", .named ⟨22, 28⟩ "on" (.qualified ⟨25, 28⟩ ["x", "i"])]], []⟩,
        [.query ⟨.ident ⟨31, 32⟩ "p", [.call ⟨34, 49⟩ ⟨"cross_join", ⟨34, 44⟩, false⟩
          [.qualified ⟨45, 48⟩ ["c", "d"]]]⟩]⟩ :=
    Script.read_of_stages tokens (by set_option maxRecDepth 4000 in rfl)
  refine ⟨_, _, accepted, rfl, by decide +kernel, by decide +kernel, ?_⟩
  exact (tables_follow_the_joins .sqlite _ _ rfl).2.2.2 1 ⟨"b", "c.d", none, "CROSS"⟩ (by decide +kernel)

end PipeSql
