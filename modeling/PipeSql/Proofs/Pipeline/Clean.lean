import PipeSql.Compile
import PipeSql.Proofs.Pipeline.Cut
import PipeSql.Proofs.Pipeline.Grouped
import PipeSql.Proofs.Pipeline.Recorded
import PipeSql.Proofs.Script.Grammar

set_option autoImplicit false

namespace PipeSql

open Lowering Text

namespace Stage

variable {allowed : Allowance} {scope : Scope} {queryText : QueryText}

theorem table_of_leads {term : Term} (formed : term.WellFormed) {table : Table} (found : tableOf? term = some table) :
    leads table.name.toList = true ∧ leads table.sql.toList = true := by
  cases term with
  | ident span name =>
    cases found
    exact ⟨leads_word formed.1, leads_word formed.1⟩
  | qualified span parts =>
    cases found
    have path := leads_join_with (by decide : leads ".".toList = true) fun part member => leads_word (formed.2 part member)
    exact ⟨path, path⟩
  | aliased span inner label =>
    cases inner with
    | ident inside name =>
      cases found
      have named := leads_word formed.2.1.1
      exact ⟨named, leads_append_text (leads_append_text named (by decide)) (leads_word formed.2.2.1)⟩
    | _ => cases found
  | _ => cases found

theorem table_records {stage : Stage} (sober : ∀ arg ∈ stage.args, arg.Sober allowed) :
    Records allowed scope (fun table => leads table.name.toList = true ∧ leads table.sql.toList = true) stage.table := by
  unfold Stage.table
  cases found : (stage.args.find? fun arg => !arg.isNamed).bind tableOf? with
  | none => exact records_refuse
  | some table =>
    obtain ⟨arg, first, named⟩ := Option.bind_eq_some_iff.1 found
    exact records_pure (table_of_leads (sober arg (List.mem_of_find?_eq_some first)).formed named)

theorem argument_records {α : Type} {holds : α → Prop} {stage : Stage} {lower : Term → Lowering α}
    (each : ∀ arg ∈ stage.args, Records allowed scope holds (lower arg)) :
    Records allowed scope holds (do lower (← stage.onlyArgument)) := by
  unfold onlyArgument
  cases given : stage.args with
  | nil => exact records_refuse
  | cons first rest =>
    cases rest with
    | nil => exact each first (given ▸ .head _)
    | cons second rest => exact records_refuse

theorem join_records (queries : Term.QueriesRecord allowed queryText) (current : Option String) {joinType : String}
    (keywords : leads (Join.keywords joinType).toList = true) {stage : Stage}
    (sober : ∀ arg ∈ stage.args, arg.Sober allowed) :
    Records allowed scope (Step.Permitted allowed) (stage.join queryText current joinType) := by
  refine records_bind (table_records sober) fun table => ?_
  have joins : ∀ condition : Option String, (∀ text, condition = some text → Permits allowed text) →
      leads table.name.toList = true ∧ leads table.sql.toList = true →
      Step.Permitted allowed (.join table ⟨current.getD "", table.name, condition, joinType⟩) :=
    fun condition given named statement permitted => Statement.add_join_permitted permitted named.2 ⟨given, keywords⟩
  cases found : named? "on" stage.args with
  | none =>
    by_cases cross : joinType = "CROSS"
    · simp only [if_pos cross]
      exact records_pure (joins none (by simp))
    · simp only [if_neg cross]
      exact records_refuse
  | some term =>
    obtain ⟨arg, member, part⟩ := named_mem "on" stage.args term found
    have body := @Term.body_records _ scope _ queries term (Term.part_sober (sober arg member) part)
    have given : Records allowed scope (fun condition => ∀ text, condition = some text → Permits allowed text)
        (some <$> term.bodyText queryText) := records_map body fun text permitted other same => by
      cases same
      exact permitted
    exact records_map given joins

theorem filter_records (queries : Term.QueriesRecord allowed queryText) {term : Term} (sober : term.Sober allowed) :
    Records allowed scope (fun conditions => ∀ condition ∈ conditions, condition.Permitted allowed)
      (filterConditions queryText term) := by
  have enclosed : ∀ conditions : List (Condition Column), (∀ condition ∈ conditions, condition.Permitted allowed) →
      ∀ condition ∈ (if Condition.hasLooseOr conditions then .opening :: conditions ++ [.closing] else conditions),
        condition.Permitted allowed := by
    intro conditions each condition member
    split at member
    · rcases List.mem_append.1 member with member | member
      · rcases List.mem_cons.1 member with rfl | member
        · trivial
        · exact each condition member
      · cases List.mem_singleton.1 member
        trivial
    · exact each condition member
  have plain : Records allowed scope (fun conditions => ∀ condition ∈ conditions, condition.Permitted allowed) (do
      let conditions ← term.conditions queryText
      return if Condition.hasLooseOr conditions then .opening :: conditions ++ [.closing] else conditions) :=
    records_map (Term.conditions_record queries sober) enclosed
  cases term with
  | lambda span params body =>
    have inner : Records allowed scope (fun conditions => ∀ condition ∈ conditions, condition.Permitted allowed)
        (withRows params (body.conditions queryText)) :=
      records_with_rows params fun scope => Term.conditions_record queries (Term.part_sober sober (.head _))
    exact records_map inner enclosed
  | _ => exact plain

theorem count_records (queries : Term.QueriesRecord allowed queryText) {term : Term} (sober : term.Sober allowed) :
    Records allowed scope (Permits allowed) (count queryText term) := by
  have plain := @Term.text_records _ scope _ queries term sober
  cases term with
  | param span name =>
    exact records_bind (records_declare name "INTEGER") fun _ => records_mono plain fun _ permitted _ => permitted
  | _ => exact plain

theorem union_records (queries : Term.QueriesRecord allowed queryText) {stage : Stage}
    (sober : ∀ arg ∈ stage.args, arg.Sober allowed) :
    Records allowed scope (Permits allowed) (stage.unionQuery queryText) := by
  refine argument_records fun term member => ?_
  have query := queries term [] (by simpa using sober term member) scope
  cases term with
  | ident | paren | pipe => exact query
  | _ => exact records_refuse

theorem step_records (queries : Term.QueriesRecord allowed queryText) (current : Option String) {stage : Stage}
    (sober : ∀ arg ∈ stage.args, arg.Sober allowed) :
    Records allowed scope (Step.Permitted allowed) (stage.step queryText current) := by
  have columns := @Term.columns_record _ scope _ queries stage.args sober
  unfold Stage.step
  cases Operation.ofName? stage.name with
  | none => exact records_refuse
  | some operation =>
    cases operation with
    | innerJoin => exact join_records queries current (by decide) sober
    | leftJoin => exact join_records queries current (by decide) sober
    | crossJoin => exact join_records queries current (by decide) sober
    | filter =>
      refine argument_records fun arg member => ?_
      exact records_map (filter_records queries (sober arg member)) fun _ each statement permitted =>
        Statement.restrict_permitted permitted each
    | having =>
      refine argument_records fun arg member => ?_
      refine records_map (Term.body_records queries (sober arg member)) fun text clean statement permitted => ?_
      exact { permitted with having := fun other same => Option.some.inj same ▸ clean }
    | select =>
      exact records_map columns fun _ each statement permitted => { permitted with columns := each }
    | selectDistinct =>
      exact records_map columns fun _ each statement permitted => { permitted with columns := each }
    | groupBy =>
      refine records_map columns fun _ each statement permitted => { permitted with groupBy := fun column member => ?_ }
      exact (List.mem_append.1 member).elim (permitted.groupBy column) (each column)
    | orderBy =>
      refine records_map (Term.order_items_record queries sober) fun _ each statement permitted =>
        { permitted with orderBy := fun item member => ?_ }
      exact (List.mem_append.1 member).elim (permitted.orderBy item) (each item)
    | limit =>
      refine argument_records fun arg member => ?_
      refine records_map (count_records queries (sober arg member)) fun text clean statement permitted => ?_
      exact { permitted with limit := fun other same => Option.some.inj same ▸ clean }
    | offset =>
      refine argument_records fun arg member => ?_
      refine records_map (count_records queries (sober arg member)) fun text clean statement permitted => ?_
      exact { permitted with offset := fun other same => Option.some.inj same ▸ clean }
    | union | unionAll =>
      refine records_map (union_records queries sober) fun text clean statement permitted =>
        { permitted with unions := fun union member => ?_ }
      rcases List.mem_append.1 member with member | member
      · exact permitted.unions union member
      · cases List.mem_singleton.1 member
        exact clean
    | insert =>
      refine records_map (table_records sober) fun table named statement permitted => ?_
      exact { permitted with insert := fun target same => Option.some.inj same ▸ ⟨named.1, rfl⟩ }

theorem args_sober {term : Term} (sober : term.Sober allowed) {stage : Stage} (found : ofTerm? term = some stage) :
    ∀ arg ∈ stage.args, arg.Sober allowed := by
  cases term with
  | call span head args =>
    cases found
    exact fun arg member => Term.part_sober sober member
  | windowed span head args partitionBy orderBy =>
    cases found
    exact fun arg member => Term.part_sober sober (List.mem_append_left _ (List.mem_append_left _ member))
  | _ => cases found

theorem steps_record (queries : Term.QueriesRecord allowed queryText) (current : Option String) {stages : List Term}
    (sober : ∀ stage ∈ stages, stage.Sober allowed) :
    Records allowed scope (fun steps => ∀ step ∈ steps, Step.Permitted allowed step) (steps queryText current stages) := by
  induction stages generalizing current with
  | nil => exact records_pure (by simp)
  | cons term rest ih =>
    rw [steps]
    cases found : ofTerm? term with
    | none => exact records_refuse
    | some stage =>
      refine records_bind (step_records queries current (args_sober (sober term (.head _)) found)) fun first => ?_
      refine records_map (ih _ fun other member => sober other (.tail _ member)) fun others permitted firstPermitted => ?_
      exact List.forall_mem_cons.2 ⟨firstPermitted, permitted⟩

theorem through_records (queries : Term.QueriesRecord allowed queryText) (base : Node) {stages : List Term}
    (sober : ∀ stage ∈ stages, stage.Sober allowed) :
    Records allowed scope (fun node => Node.Permitted allowed base → Node.Permitted allowed node)
      (through queryText base stages) := by
  cases stages with
  | nil => exact records_pure id
  | cons first rest =>
    refine records_map (steps_record queries base.lastTable? sober) fun steps each permitted => ?_
    refine Node.pipeline_permitted (List.forall_mem_cons.2 ⟨fun statement known => ?_, each⟩)
    rw [Node.addStep]
    exact permitted statement known

end Stage

section

variable {allowed : Allowance} {scope : Scope} {queryText : QueryText}

theorem Term.source_records (queries : QueriesRecord allowed queryText) {term : Term} (sober : term.Sober allowed) :
    Records allowed scope (Node.Permitted allowed) (term.source queryText) := by
  induction term using parts_induction with
  | step term ih =>
    cases term with
    | ident span name =>
      exact records_read fun names => Scope.node_permitted names (leads_word sober.formed.1)
    | paren span inner => exact ih inner (.head _) (part_sober sober (.head _))
    | pipe span source stages =>
      refine records_bind (ih source (.head _) (part_sober sober (.head _))) fun base => ?_
      exact Stage.through_records queries base fun stage member => part_sober sober (.tail _ member)
    | _ => exact records_refuse

theorem Pipe.node_with_records (queries : Term.QueriesRecord allowed queryText) {pipe : Pipe}
    (sober : ∀ term ∈ pipe.source :: pipe.stages, term.Sober allowed) :
    Records allowed scope (Node.Permitted allowed) (pipe.nodeWith queryText) := by
  refine records_bind (Term.source_records queries (sober _ (.head _))) fun base => ?_
  exact Stage.through_records queries base fun stage member => sober stage (.tail _ member)

theorem Pipe.queries_record (depth : Nat) : Term.QueriesRecord allowed (textWithin depth) := by
  induction depth with
  | zero => exact fun _ _ _ _ => records_refuse
  | succ depth ih =>
    intro source stages sober scope
    exact records_bind (node_with_records ih sober) fun node => records_write_node node

theorem Plan.last_node_records (statement : ScriptStatement) (rest : List ScriptStatement)
    (sober : ∀ member ∈ statement :: rest, ∀ term ∈ member.pipe.source :: member.pipe.stages, term.Sober allowed) :
    Records allowed scope (Node.Permitted allowed) (lastNode statement rest) := by
  induction rest generalizing statement scope with
  | nil =>
    have node : Records allowed scope (Node.Permitted allowed) statement.pipe.node :=
      Pipe.node_with_records (Pipe.queries_record _) (sober statement (.head _))
    cases statement <;> exact node
  | cons next rest ih =>
    have following := fun scope => @ih scope next fun member present => sober member (.tail _ present)
    cases statement with
    | bind name span value =>
      have node : Records allowed scope (Node.Permitted allowed) value.node :=
        Pipe.node_with_records (Pipe.queries_record _) (sober _ (.head _))
      exact records_bind node fun node => records_with_binding name node following
    | query value =>
      have node : Records allowed scope (Node.Permitted allowed) value.node :=
        Pipe.node_with_records (Pipe.queries_record _) (sober _ (.head _))
      exact records_bind node fun _ => records_mono (following scope) fun _ permitted _ => permitted

end

namespace Plan

variable {dialect : Dialect} {script : Script} {plan : Plan}

theorem script_sober {allowed : Allowance} (formed : script.WellFormed)
    (dashes : ∀ outer inner operand,
      script.Contains (.unary outer .negate (.unary inner .negate operand)) → allowed.comment) :
    ∀ member ∈ script.statements, ∀ term ∈ member.pipe.source :: member.pipe.stages, term.Sober allowed := by
  intro member present term top
  refine ⟨Script.contains_well_formed script term formed ⟨member, present, term, top, .self _⟩, ?_⟩
  exact fun outer inner operand within => dashes outer inner operand ⟨member, present, term, top, within⟩

theorem recorded_distinct (formed : script.WellFormed) (planned : ofScript dialect script = .ok plan) :
    (plan.parameters.map Parameter.name).Nodup := by
  have records := @last_node_records ⟨fun _ => True, True⟩ ⟨dialect, [], []⟩ script.first script.others
    (script_sober formed fun _ _ _ _ => trivial)
  exact (records [] plan.root plan.parameters (of_script_ok planned)).1.distinct .nil

theorem statement_permitted {allowed : Allowance} (formed : script.WellFormed)
    (dashes : ∀ outer inner operand,
      script.Contains (.unary outer .negate (.unary inner .negate operand)) → allowed.comment)
    (planned : ofScript dialect script = .ok plan)
    (recorded : ∀ parameter ∈ plan.parameters, allowed.parameter parameter.name) :
    Statement.Permitted allowed plan.statement := by
  have records := @last_node_records allowed ⟨dialect, [], []⟩ script.first script.others (script_sober formed dashes)
  have root := (records [] plan.root plan.parameters (of_script_ok planned)).2 (fun _ bound => by cases bound) recorded
  have permitted := root .empty Statement.empty_permitted
  obtain ⟨declared, same⟩ := declared_eq plan.parameters plan.root.statement
  rw [Plan.statement, same]
  exact { permitted with }

theorem step_parameters {current : Option String} {step : Step Node} (lowered : step.Lowered current)
    (statement : Statement) : (Node.addStep statement step).parameters = statement.parameters := by
  cases lowered <;> rfl

theorem chain_parameters {current : Option String} {steps : List (Step Node)} (chain : Stage.Chain current steps)
    (statement : Statement) : (Node.addSteps statement steps).parameters = statement.parameters := by
  induction chain generalizing statement with
  | nil => rfl
  | cons first others ih => rw [Node.addSteps, ih, step_parameters first]

theorem node_parameters {node : Node} (lowered : node.Lowered) (statement : Statement) :
    (node.addTo statement).parameters = statement.parameters := by
  induction lowered generalizing statement with
  | table name => rfl
  | pipeline source chain ih =>
    rw [Node.addTo, Node.addSteps, chain_parameters chain, Node.addStep, ih]

theorem declared_all (parameters : List Parameter) (statement : Statement)
    (distinct : ((statement.parameters ++ parameters).map Parameter.name).Nodup) :
    (parameters.foldl Statement.declare statement).parameters = statement.parameters ++ parameters := by
  induction parameters generalizing statement with
  | nil => simp
  | cons parameter rest ih =>
    have fresh : (statement.parameters.any fun known => known.name == parameter.name) = false := by
      rw [List.any_eq_false]
      intro known member same
      rw [List.map_append, List.nodup_append] at distinct
      exact distinct.2.2 known.name (List.mem_map_of_mem member) parameter.name (.head _) (beq_iff_eq.1 same)
    have declared : statement.declare parameter =
        { statement with parameters := statement.parameters ++ [parameter] } := by
      rw [Statement.declare, fresh]
      rfl
    rw [List.foldl_cons, declared, ih]
    · simp
    · simpa using distinct

theorem statement_parameters (formed : script.WellFormed) (planned : ofScript dialect script = .ok plan) :
    plan.statement.parameters = plan.parameters := by
  have none : plan.root.statement.parameters = [] := node_parameters (root_lowered planned) .empty
  have distinct := recorded_distinct formed planned
  rw [Plan.statement, declared_all, none, List.nil_append]
  rwa [none, List.nil_append]

end Plan

theorem Except.map_error_ok {ε δ α : Type} {change : ε → δ} {outcome : Except ε α} {value : α}
    (done : outcome.mapError change = .ok value) : outcome = .ok value := by
  cases outcome with
  | error failure => cases done
  | ok result =>
    cases done
    rfl

theorem Statement.write_ok {statement : Statement} {dialect : Dialect} {guess : Bool} {sql : String}
    (written : statement.write dialect guess = .ok sql) : sql = Statement.sql dialect guess statement := by
  unfold Statement.write at written
  split at written
  · cases written
    rfl
  · cases written

theorem compile_ok {config : Config} {source : String} {dialect : Dialect} {query : CompiledQuery}
    (compiled : compile config source dialect = .ok query) :
    ∃ script plan, Script.read source config.screened = .ok script ∧ Plan.ofScript config.unionDialect script = .ok plan ∧
      query.sql = Statement.sql dialect config.guessColumns plan.statement ∧ query.statement = plan.statement ∧
      query.parameters = plan.parameters := by
  unfold compile at compiled
  obtain ⟨plan, planned, compiled⟩ := Except.bind_ok compiled
  obtain ⟨sql, written, rfl⟩ := Except.map_ok compiled
  unfold PipeSql.plan at planned
  obtain ⟨script, accepted, lowered⟩ := Except.bind_ok planned
  exact ⟨script, plan, Except.map_error_ok accepted, Except.map_error_ok lowered,
    Statement.write_ok (Except.map_error_ok written), rfl, rfl⟩

theorem erased_chars (text : String) : (eraseLiterals text).toList = hollow false text.toList :=
  String.toList_ofList

theorem mentioned_parameters_are_declared (config : Config) (source : String) (dialect : Dialect) (query : CompiledQuery)
    (compiled : compile config source dialect = .ok query) :
    (∀ name ∈ Text.mentioned query.sql, ∃ parameter ∈ query.parameters, parameter.name = name) ∧
      (query.parameters.map Parameter.name).Nodup ∧ query.statement.parameters = query.parameters := by
  obtain ⟨script, plan, accepted, planned, sql, statement, parameters⟩ := compile_ok compiled
  have formed := Script.read_well_formed source config.screened script accepted
  rw [sql, statement, parameters]
  refine ⟨?_, Plan.recorded_distinct formed planned, Plan.statement_parameters formed planned⟩
  -- the allowed names are those of the plan; dashes do not matter here
  have permitted := @Plan.statement_permitted _ _ _ ⟨fun name => ∃ parameter ∈ plan.parameters, parameter.name = name, True⟩
    formed (fun _ _ _ _ => trivial) planned fun parameter member => ⟨parameter, member, rfl⟩
  have clean := clean_marked (Statement.sql_permitted dialect config.guessColumns permitted)
  rw [Text.mentioned, erased_chars]
  exact clean

theorem nested_parameters_are_declared :
    ∃ query, compile ⟨.postgresql, .sqlite, false, true⟩ "t|>filter(a=@p and b='@q' and exists(u|>limit(@r)))" .sqlserver =
        .ok query ∧ query.sql = "SELECT * FROM t WHERE a = @p AND b = '@q' AND EXISTS (SELECT * FROM u LIMIT @r)" ∧
      (∀ name ∈ Text.mentioned query.sql, ∃ parameter ∈ query.parameters, parameter.name = name) ∧
      (query.parameters.map Parameter.name).Nodup ∧ query.statement.parameters = query.parameters := by
  have tokens : tokenize "t|>filter(a=@p and b='@q' and exists(u|>limit(@r)))" = .ok [⟨.ident "t", ⟨0, 1⟩⟩,
      ⟨.symbol .pipe, ⟨1, 3⟩⟩, ⟨.ident "filter", ⟨3, 9⟩⟩, ⟨.symbol .leftParen, ⟨9, 10⟩⟩, ⟨.ident "a", ⟨10, 11⟩⟩,
      ⟨.symbol .eq, ⟨11, 12⟩⟩, ⟨.param "p", ⟨12, 14⟩⟩, ⟨.keyword .and, ⟨15, 18⟩⟩, ⟨.ident "b", ⟨19, 20⟩⟩,
      ⟨.symbol .eq, ⟨20, 21⟩⟩, ⟨.str "@q", ⟨21, 25⟩⟩, ⟨.keyword .and, ⟨26, 29⟩⟩, ⟨.keyword .exists, ⟨30, 36⟩⟩,
      ⟨.symbol .leftParen, ⟨36, 37⟩⟩, ⟨.ident "u", ⟨37, 38⟩⟩, ⟨.symbol .pipe, ⟨38, 40⟩⟩, ⟨.ident "limit", ⟨40, 45⟩⟩,
      ⟨.symbol .leftParen, ⟨45, 46⟩⟩, ⟨.param "r", ⟨46, 48⟩⟩, ⟨.symbol .rightParen, ⟨48, 49⟩⟩,
      ⟨.symbol .rightParen, ⟨49, 50⟩⟩, ⟨.symbol .rightParen, ⟨50, 51⟩⟩] := by decide +kernel
  have accepted : Script.read "t|>filter(a=@p and b='@q' and exists(u|>limit(@r)))" false = .ok
      ⟨.query ⟨.ident ⟨0, 1⟩ "t", [.call ⟨3, 51⟩ ⟨"filter", ⟨3, 9⟩, false⟩ [.binary ⟨10, 50⟩ .and
        (.binary ⟨10, 25⟩ .and (.binary ⟨10, 14⟩ .eq (.ident ⟨10, 11⟩ "a") (.param ⟨12, 14⟩ "p"))
          (.binary ⟨19, 25⟩ .eq (.ident ⟨19, 20⟩ "b") (.literal ⟨21, 25⟩ (.str "@q"))))
        (.exists ⟨30, 50⟩ (.ident ⟨37, 38⟩ "u") [.call ⟨40, 49⟩ ⟨"limit", ⟨40, 45⟩, false⟩ [.param ⟨46, 48⟩ "r"]])]]⟩, []⟩ :=
    Script.read_of_stages tokens (by set_option maxRecDepth 4000 in rfl)
  have written : (compile ⟨.postgresql, .sqlite, false, true⟩ "t|>filter(a=@p and b='@q' and exists(u|>limit(@r)))"
      .sqlserver).map CompiledQuery.sql =
        .ok "SELECT * FROM t WHERE a = @p AND b = '@q' AND EXISTS (SELECT * FROM u LIMIT @r)" := by
    unfold compile plan
    rw [accepted]
    decide +kernel
  cases compiled : compile ⟨.postgresql, .sqlite, false, true⟩ "t|>filter(a=@p and b='@q' and exists(u|>limit(@r)))"
      .sqlserver with
  | error failure =>
    rw [compiled] at written
    cases written
  | ok query =>
    rw [compiled] at written
    exact ⟨query, rfl, Except.ok.inj written, mentioned_parameters_are_declared _ _ _ query compiled⟩

theorem line_comment_needs_double_minus (config : Config) (source : String) (dialect : Dialect) (script : Script)
    (query : CompiledQuery) (accepted : Script.read source config.screened = .ok script)
    (compiled : compile config source dialect = .ok query)
    (apart : ∀ outer inner operand, ¬ script.Contains (.unary outer .negate (.unary inner .negate operand))) :
    Text.NoComment query.sql := by
  obtain ⟨other, plan, again, planned, sql, -, -⟩ := compile_ok compiled
  cases accepted.symm.trans again
  have formed := Script.read_well_formed source config.screened script accepted
  -- every name is allowed; dashes must not meet
  have permitted := @Plan.statement_permitted _ _ _ ⟨fun _ => True, False⟩ formed
    (fun outer inner operand contained => apart outer inner operand contained) planned fun _ _ => trivial
  rw [Text.NoComment, sql, erased_chars]
  exact clean_dashes (Statement.sql_permitted dialect config.guessColumns permitted)

theorem subtracted_minus_writes_no_comment :
    ∃ script query, Script.read "t|>select(b- -a,'--')" false = .ok script ∧
      (∀ outer inner operand, ¬ script.Contains (.unary outer .negate (.unary inner .negate operand))) ∧
      compile ⟨.postgresql, .sqlite, false, true⟩ "t|>select(b- -a,'--')" .sqlite = .ok query ∧
      query.sql = "SELECT b - -a, '--' FROM t" ∧ Text.NoComment query.sql := by
  have tokens : tokenize "t|>select(b- -a,'--')" = .ok [⟨.ident "t", ⟨0, 1⟩⟩, ⟨.symbol .pipe, ⟨1, 3⟩⟩,
      ⟨.ident "select", ⟨3, 9⟩⟩, ⟨.symbol .leftParen, ⟨9, 10⟩⟩, ⟨.ident "b", ⟨10, 11⟩⟩, ⟨.symbol .minus, ⟨11, 12⟩⟩,
      ⟨.symbol .minus, ⟨13, 14⟩⟩, ⟨.ident "a", ⟨14, 15⟩⟩, ⟨.symbol .comma, ⟨15, 16⟩⟩, ⟨.str "--", ⟨16, 20⟩⟩,
      ⟨.symbol .rightParen, ⟨20, 21⟩⟩] := by decide +kernel
  have accepted : Script.read "t|>select(b- -a,'--')" false = .ok ⟨.query ⟨.ident ⟨0, 1⟩ "t",
      [.call ⟨3, 21⟩ ⟨"select", ⟨3, 9⟩, false⟩ [.binary ⟨10, 15⟩ .sub (.ident ⟨10, 11⟩ "b")
        (.unary ⟨13, 15⟩ .negate (.ident ⟨14, 15⟩ "a")), .literal ⟨16, 20⟩ (.str "--")]]⟩, []⟩ :=
    Script.read_of_stages tokens (by set_option maxRecDepth 4000 in rfl)
  have apart : ∀ outer inner operand, ¬ Script.Contains ⟨.query ⟨.ident ⟨0, 1⟩ "t",
      [.call ⟨3, 21⟩ ⟨"select", ⟨3, 9⟩, false⟩ [.binary ⟨10, 15⟩ .sub (.ident ⟨10, 11⟩ "b")
        (.unary ⟨13, 15⟩ .negate (.ident ⟨14, 15⟩ "a")), .literal ⟨16, 20⟩ (.str "--")]]⟩, []⟩
      (.unary outer .negate (.unary inner .negate operand)) := by
    intro outer inner operand
    generalize same : Term.unary outer .negate (.unary inner .negate operand) = double
    have name : ∀ span text, ¬ double.Within (.ident span text) := by
      intro span text
      rw [Term.within_iff, not_or]
      exact ⟨by simp [← same], by simp [Term.parts]⟩
    have text : ¬ double.Within (.literal ⟨16, 20⟩ (.str "--")) := by
      rw [Term.within_iff, not_or]
      exact ⟨by simp [← same], by simp [Term.parts]⟩
    have minus : ¬ double.Within (.unary ⟨13, 15⟩ .negate (.ident ⟨14, 15⟩ "a")) := by
      rw [Term.within_iff, not_or]
      exact ⟨by simp [← same], by simp [Term.parts, name]⟩
    have difference : ¬ double.Within (.binary ⟨10, 15⟩ .sub (.ident ⟨10, 11⟩ "b")
        (.unary ⟨13, 15⟩ .negate (.ident ⟨14, 15⟩ "a"))) := by
      rw [Term.within_iff, not_or]
      exact ⟨by simp [← same], by simp [Term.parts, name, minus]⟩
    have selection : ¬ double.Within (.call ⟨3, 21⟩ ⟨"select", ⟨3, 9⟩, false⟩ [.binary ⟨10, 15⟩ .sub (.ident ⟨10, 11⟩ "b")
        (.unary ⟨13, 15⟩ .negate (.ident ⟨14, 15⟩ "a")), .literal ⟨16, 20⟩ (.str "--")]) := by
      rw [Term.within_iff, not_or]
      exact ⟨by simp [← same], by simp [Term.parts, difference, text]⟩
    simp [Script.Contains, Script.statements, ScriptStatement.pipe, name, selection]
  have written : (compile ⟨.postgresql, .sqlite, false, true⟩ "t|>select(b- -a,'--')" .sqlite).map CompiledQuery.sql =
      .ok "SELECT b - -a, '--' FROM t" := by
    unfold compile plan
    rw [accepted]
    decide +kernel
  cases compiled : compile ⟨.postgresql, .sqlite, false, true⟩ "t|>select(b- -a,'--')" .sqlite with
  | error failure =>
    rw [compiled] at written
    cases written
  | ok query =>
    rw [compiled] at written
    exact ⟨_, query, accepted, apart, rfl, Except.ok.inj written,
      line_comment_needs_double_minus ⟨.postgresql, .sqlite, false, true⟩ _ _ _ query accepted compiled apart⟩

theorem double_minus_writes_comment :
    ∃ query, compile ⟨.postgresql, .sqlite, false, true⟩ "t |> select(- -a)" .sqlite = .ok query ∧
      query.sql = "SELECT --a FROM t" ∧ ¬ Text.NoComment query.sql := by
  have tokens : tokenize "t |> select(- -a)" = .ok [⟨.ident "t", ⟨0, 1⟩⟩, ⟨.symbol .pipe, ⟨2, 4⟩⟩,
      ⟨.ident "select", ⟨5, 11⟩⟩, ⟨.symbol .leftParen, ⟨11, 12⟩⟩, ⟨.symbol .minus, ⟨12, 13⟩⟩,
      ⟨.symbol .minus, ⟨14, 15⟩⟩, ⟨.ident "a", ⟨15, 16⟩⟩, ⟨.symbol .rightParen, ⟨16, 17⟩⟩] := by decide +kernel
  have accepted : Script.read "t |> select(- -a)" false = .ok ⟨.query ⟨.ident ⟨0, 1⟩ "t",
      [.call ⟨5, 17⟩ ⟨"select", ⟨5, 11⟩, false⟩ [.unary ⟨12, 16⟩ .negate (.unary ⟨14, 16⟩ .negate
        (.ident ⟨15, 16⟩ "a"))]]⟩, []⟩ :=
    Script.read_of_stages tokens (by set_option maxRecDepth 4000 in rfl)
  have written : (compile ⟨.postgresql, .sqlite, false, true⟩ "t |> select(- -a)" .sqlite).map CompiledQuery.sql =
      .ok "SELECT --a FROM t" := by
    unfold compile plan
    rw [accepted]
    decide +kernel
  cases compiled : compile ⟨.postgresql, .sqlite, false, true⟩ "t |> select(- -a)" .sqlite with
  | error failure =>
    rw [compiled] at written
    cases written
  | ok query =>
    rw [compiled] at written
    have sql := Except.ok.inj written
    refine ⟨query, rfl, sql, ?_⟩
    rw [sql]
    exact fun free => free ⟨"SELECT ".toList, "a FROM t".toList, by decide⟩

end PipeSql
