import PipeSql.Proofs.Pipeline.Lowered
import PipeSql.Proofs.Pipeline.Parallel

set_option autoImplicit false

namespace PipeSql

namespace Lowering

variable {α β : Type} {scope other : Scope} {parameters : List Parameter} {known : String → Prop}

theorem bind_congr {first : Lowering α} {next after : α → Lowering β}
    (same : ∀ value met, first scope parameters = .ok (value, met) → next value scope met = after value scope met) :
    (first >>= next) scope parameters = (first >>= after) scope parameters := by
  change (first scope parameters).bind (fun pair => next pair.1 scope pair.2) =
    (first scope parameters).bind fun pair => after pair.1 scope pair.2
  cases run : first scope parameters with
  | error failure => rfl
  | ok pair => exact same pair.1 pair.2 run

theorem same_outcome {left right : Lowering α} (same : Same id known left right) (beside : scope.Beside known other)
    (parameters : List Parameter) : right other parameters = left scope parameters := by
  rw [same scope other beside parameters]
  cases left scope parameters with
  | error failure => exact congrArg Except.error failure.moved_id
  | ok result => rfl

theorem Scope.beside_self (scope : Scope) : scope.Beside known scope :=
  ⟨rfl, rfl, fun _ _ => rfl⟩

theorem Scope.beside_bound (scope : Scope) (name : String) (node : Node) :
    scope.Beside (· ≠ name) { scope with bound := (name, node) :: scope.bound } := by
  refine ⟨rfl, rfl, fun asked different => ?_⟩
  rw [scope.node_bound, beq_false_of_ne (Ne.symm different)]
  rfl

end Lowering

open Lowering

theorem Term.within_iff {inner outer : Term} :
    inner.Within outer ↔ inner = outer ∨ ∃ part ∈ outer.parts, inner.Within part := by
  constructor
  · intro within
    cases within with
    | self => exact .inl rfl
    | deeper part _ member within => exact .inr ⟨part, member, within⟩
  · rintro (rfl | ⟨part, member, within⟩)
    · exact .self _
    · exact .deeper _ part _ member within

theorem Term.heights_append (before after : List Term) :
    heights (before ++ after) = max (heights before) (heights after) := by
  induction before with
  | nil => simp [heights]
  | cons first rest ih => rw [List.cons_append, heights, ih, heights, Nat.max_assoc]

namespace Node

theorem add_steps_append (statement : Statement) (before after : List (Step Node)) :
    addSteps statement (before ++ after) = addSteps (addSteps statement before) after := by
  induction before generalizing statement with
  | nil => rfl
  | cons step rest ih => rw [List.cons_append, addSteps, addSteps, ih]

theorem chain_last_table {current : Option String} {steps : List (Step Node)} (chain : Stage.Chain current steps) :
    (stepsLastTable? steps <|> current) = steps.foldl Stage.tableAfter current := by
  induction chain with
  | nil current => rfl
  | @cons current step rest first others ih =>
    rw [List.foldl_cons, ← ih, stepsLastTable?]
    cases first <;> cases stepsLastTable? rest <;> rfl

end Node

namespace Stage

variable {queryText : QueryText}

theorem steps_append (current : Option String) (early late : List Term) :
    steps queryText current (early ++ late) = (do
      let before ← steps queryText current early
      let after ← steps queryText (before.foldl tableAfter current) late
      return before ++ after) := by
  induction early generalizing current with
  | nil =>
    simp only [List.nil_append, steps, pure_bind, List.foldl_nil]
    exact (bind_pure _).symm
  | cons term rest ih =>
    simp only [List.cons_append, steps]
    cases ofTerm? term with
    | none => rfl
    | some stage => simp only [ih, bind_assoc, pure_bind, List.foldl_cons, List.cons_append]

-- Where the pipe is cut, the second part starts from the table that came in last.
theorem through_append (base : Node) (early late : List Term) :
    (do return (← through queryText base (early ++ late)).statement) = (do
      let inner ← through queryText base early
      return (← through queryText inner late).statement : Lowering Statement) := by
  cases early with
  | nil => simp only [List.nil_append, through, pure_bind]
  | cons first others =>
    cases late with
    | nil => simp only [List.append_nil, through, pure_bind]
    | cons next rest =>
      simp only [List.cons_append, through, bind_assoc, pure_bind]
      rw [← List.cons_append, steps_append]
      simp only [bind_assoc, pure_bind]
      funext scope parameters
      refine bind_congr fun before met done => ?_
      have chain := steps_chain base.lastTable? (first :: others) parameters before met done
      have table : (Node.pipeline (.source base :: before)).lastTable? = before.foldl tableAfter base.lastTable? :=
        Node.chain_last_table chain
      rw [table]
      refine bind_congr fun after known _ => ?_
      change Except.ok (Node.addSteps (base.addTo .empty) (before ++ after), known) =
        .ok (Node.addSteps (Node.addSteps (base.addTo .empty) before) after, known)
      rw [Node.add_steps_append]

end Stage

namespace Pipe

-- A pipe in parentheses. Without stages it is the source in parentheses.
def enclosed (span : Span) (pipe : Pipe) : Term :=
  match pipe.stages with
  | [] => .paren span pipe.source
  | first :: rest => .pipe span pipe.source (first :: rest)

theorem enclosed_source (queryText : QueryText) (span : Span) (pipe : Pipe) :
    (pipe.enclosed span).source queryText = pipe.nodeWith queryText := by
  obtain ⟨source, stages⟩ := pipe
  cases stages with
  | nil => exact (bind_pure _).symm
  | cons first rest => rfl

-- Beyond the height of a pipe, the depth to which queries may nest does not matter.
theorem node_with_deep {depth : Nat} (pipe : Pipe) (deep : pipe.height ≤ depth) :
    pipe.nodeWith (textWithin depth) = pipe.node := by
  have queries := @queries_same id (fun _ => True) pipe.height pipe.height depth (by omega)
  have same := parallel_same (fun _ _ both => both) (node_with_parallel queries pipe fun term member =>
    ⟨term_height pipe term member, fun _ _ _ => trivial⟩)
  have self : pipe.mapped id id = pipe := by
    rw [Pipe.mapped, Term.mapped_id, Term.mapped_all_id]
  rw [self] at same
  funext scope parameters
  exact same_outcome same scope.beside_self parameters

theorem through_unbound {depth : Nat} (base : Node) (stages : List Term) (name : String) (node : Node)
    (fresh : ∀ stage ∈ stages, ∀ span, ¬ (Term.ident span name).Within stage) (deep : Term.heights stages ≤ depth)
    (scope : Scope) (parameters : List Parameter) :
    Stage.through (textWithin depth) base stages { scope with bound := (name, node) :: scope.bound } parameters =
      Stage.through (textWithin depth) base stages scope parameters := by
  have queries := @queries_same id (· ≠ name) depth depth depth rfl
  have same := parallel_same (fun _ _ both => both) (Stage.through_parallel queries base stages fun stage member =>
    ⟨Nat.le_trans (Term.height_le_heights stage stages member) deep, fun span other within => by
      rintro rfl
      exact fresh stage member span within⟩)
  rw [Term.mapped_all_id] at same
  exact same_outcome same (scope.beside_bound name node) parameters

end Pipe

namespace Script

-- The script behind further statements.
def following : List ScriptStatement → Script → Script
  | [], script => script
  | first :: rest, script => ⟨first, (following rest script).statements⟩

-- What a script comes to: its text, its statement and its parameters.
def rendered (queries dialect : Dialect) (guess : Bool) (script : Script) :
    Except Failure (Except Unbalanced String × Statement × List Parameter) :=
  (Plan.ofScript queries script).map fun plan => (plan.statement.write dialect guess, plan.statement, plan.parameters)

def lastStatement (script : Script) : Lowering Statement := do
  return (← Plan.lastNode script.first script.others).statement

theorem last_statement_first (first : ScriptStatement) (script : Script) :
    lastStatement ⟨first, script.statements⟩ =
      match first with
      | .bind name _ value => (do withBinding name (← value.node) script.lastStatement)
      | .query value => (do let _ ← value.node; script.lastStatement) := by
  cases first with
  | bind name span value =>
    change (value.node >>= fun node => withBinding name node (Plan.lastNode script.first script.others)) >>= _ = _
    rw [bind_assoc]
    rfl
  | query value =>
    change (value.node >>= fun _ => Plan.lastNode script.first script.others) >>= _ = _
    rw [bind_assoc]
    rfl

theorem following_last_statement (before : List ScriptStatement) {script other : Script}
    (same : script.lastStatement = other.lastStatement) :
    (following before script).lastStatement = (following before other).lastStatement := by
  induction before with
  | nil => exact same
  | cons first rest ih => rw [following, following, last_statement_first, last_statement_first, ih]

theorem rendered_eq {script other : Script} (same : script.lastStatement = other.lastStatement)
    (queries dialect : Dialect) (guess : Bool) :
    script.rendered queries dialect guess = other.rendered queries dialect guess := by
  have stated : ∀ script : Script, script.rendered queries dialect guess =
      (script.lastStatement ⟨queries, [], []⟩ []).map fun result =>
        ((result.2.foldl Statement.declare result.1).write dialect guess,
          result.2.foldl Statement.declare result.1, result.2) := by
    intro script
    rw [rendered, Plan.of_script_eq]
    change _ = ((Plan.lastNode script.first script.others ⟨queries, [], []⟩ []).bind fun result =>
      .ok (result.1.statement, result.2)).map _
    cases Plan.lastNode script.first script.others ⟨queries, [], []⟩ [] <;> rfl
  rw [stated, stated, same]

theorem query_last_statement {depth : Nat} (pipe : Pipe) (deep : pipe.height ≤ depth) :
    lastStatement ⟨.query pipe, []⟩ = (do
      let node ← pipe.nodeWith (Pipe.textWithin depth)
      return node.statement) := by
  rw [Pipe.node_with_deep pipe deep]
  rfl

-- All parts of a pipe are lowered with queries that may nest as deeply as in the whole pipe.
theorem whole_last_statement {depth : Nat} (source : Term) (early late : List Term)
    (deep : Pipe.height ⟨source, early ++ late⟩ ≤ depth) :
    lastStatement ⟨.query ⟨source, early ++ late⟩, []⟩ = (do
      let inner ← Pipe.nodeWith (Pipe.textWithin depth) ⟨source, early⟩
      return (← Stage.through (Pipe.textWithin depth) inner late).statement) := by
  rw [query_last_statement _ deep]
  simp only [Pipe.nodeWith, bind_assoc, Stage.through_append]

theorem enclosed_last_statement (span : Span) (source : Term) (early late : List Term) :
    lastStatement ⟨.query ⟨Pipe.enclosed span ⟨source, early⟩, late⟩, []⟩ =
      lastStatement ⟨.query ⟨source, early ++ late⟩, []⟩ := by
  have whole := Nat.le_max_left (Pipe.height ⟨source, early ++ late⟩) (Pipe.height ⟨Pipe.enclosed span ⟨source, early⟩, late⟩)
  have parts := Nat.le_max_right (Pipe.height ⟨source, early ++ late⟩) (Pipe.height ⟨Pipe.enclosed span ⟨source, early⟩, late⟩)
  rw [whole_last_statement source early late whole, query_last_statement _ parts, Pipe.nodeWith, Pipe.enclosed_source,
    bind_assoc]

theorem bound_last_statement (name : String) (nameSpan useSpan : Span) (source : Term) (early late : List Term)
    (fresh : ∀ stage ∈ late, ∀ span, ¬ (Term.ident span name).Within stage) :
    lastStatement ⟨.bind name nameSpan ⟨source, early⟩, [.query ⟨.ident useSpan name, late⟩]⟩ =
      lastStatement ⟨.query ⟨source, early ++ late⟩, []⟩ := by
  -- one depth that is enough for both parts and for the whole
  obtain ⟨depth, deep⟩ : ∃ depth, source.height + Term.heights early + Term.heights late + 1 ≤ depth := ⟨_, Nat.le_refl _⟩
  have bound : Pipe.height ⟨source, early⟩ ≤ depth := by
    rw [Pipe.height]
    dsimp only
    omega
  have used : Pipe.height ⟨.ident useSpan name, late⟩ ≤ depth := by
    rw [Pipe.height, Term.height]
    dsimp only
    omega
  have whole : Pipe.height ⟨source, early ++ late⟩ ≤ depth := by
    rw [Pipe.height, Term.heights_append]
    dsimp only
    omega
  have cut := last_statement_first (.bind name nameSpan ⟨source, early⟩) ⟨.query ⟨.ident useSpan name, late⟩, []⟩
  rw [query_last_statement _ used] at cut
  refine cut.trans ?_
  dsimp only
  rw [whole_last_statement source early late whole, ← Pipe.node_with_deep _ bound]
  funext scope parameters
  refine bind_congr fun inner met _ => ?_
  -- the name stands for the first part, and nothing else in the second part asks for it
  have named : ({ scope with bound := (name, inner) :: scope.bound } : Scope).node name = inner := by
    simp [Scope.node]
  have unbound := Pipe.through_unbound inner late name inner fresh (by omega : Term.heights late ≤ depth) scope met
  change ((Stage.through (Pipe.textWithin depth) (({ scope with bound := (name, inner) :: scope.bound } : Scope).node name)
    late { scope with bound := (name, inner) :: scope.bound } met).bind fun result => .ok (result.1.statement, result.2)) =
    (Stage.through (Pipe.textWithin depth) inner late scope met).bind fun result => .ok (result.1.statement, result.2)
  rw [named, unbound]

theorem following_statements (before : List ScriptStatement) (script : Script) :
    (following before script).statements = before ++ script.statements := by
  induction before with
  | nil => rfl
  | cons first rest ih => rw [List.cons_append, ← ih]; rfl

end Script

theorem cutting_is_invisible (queries dialect : Dialect) (guess : Bool) (before : List ScriptStatement) (source : Term)
    (early late : List Term) :
    (∀ span, (Script.following before ⟨.query ⟨Pipe.enclosed span ⟨source, early⟩, late⟩, []⟩).rendered queries dialect guess =
      (Script.following before ⟨.query ⟨source, early ++ late⟩, []⟩).rendered queries dialect guess) ∧
    ∀ name nameSpan useSpan,
      (∀ span, ¬ (Script.following before ⟨.query ⟨source, early ++ late⟩, []⟩).Contains (.ident span name)) →
      (Script.following before ⟨.bind name nameSpan ⟨source, early⟩, [.query ⟨.ident useSpan name, late⟩]⟩).rendered
          queries dialect guess =
        (Script.following before ⟨.query ⟨source, early ++ late⟩, []⟩).rendered queries dialect guess := by
  constructor
  · intro span
    have same := Script.enclosed_last_statement span source early late
    exact Script.rendered_eq (Script.following_last_statement before same) queries dialect guess
  · intro name nameSpan useSpan fresh
    -- the name is bound behind the cut only, so the stages in front of it and its own pipe do not matter
    have unused : ∀ stage ∈ late, ∀ span, ¬ (Term.ident span name).Within stage := by
      intro stage member span within
      refine fresh span ⟨.query ⟨source, early ++ late⟩, ?_, stage, .tail _ (List.mem_append_right _ member), within⟩
      rw [Script.following_statements]
      exact List.mem_append_right _ (.head _)
    have same := Script.bound_last_statement name nameSpan useSpan source early late unused
    exact Script.rendered_eq (Script.following_last_statement before same) queries dialect guess

theorem cut_behind_join_is_invisible :
    ∃ before source early late,
      (∀ span, ¬ (Script.following before ⟨.query ⟨source, early ++ late⟩, []⟩).Contains (.ident span "v")) ∧
      (Script.following before ⟨.bind "v" ⟨0, 0⟩ ⟨source, early⟩, [.query ⟨.ident ⟨0, 0⟩ "v", late⟩]⟩).rendered
          .sqlite .sqlserver true =
        (Script.following before ⟨.query ⟨source, early ++ late⟩, []⟩).rendered .sqlite .sqlserver true ∧
      ((Script.following before ⟨.query ⟨source, early ++ late⟩, []⟩).rendered .sqlite .sqlserver true).map
        (fun result => result.1) = .ok (.ok "SELECT * FROM t CROSS JOIN c WHERE x") := by
  have fresh : ∀ span, ¬ (Script.following [.bind "b" ⟨4, 5⟩ ⟨.ident ⟨6, 7⟩ "t", []⟩]
      ⟨.query ⟨.ident ⟨8, 9⟩ "b", [.call ⟨11, 24⟩ ⟨"cross_join", ⟨11, 21⟩, false⟩ [.ident ⟨22, 23⟩ "c"]] ++
        [.call ⟨26, 35⟩ ⟨"filter", ⟨26, 32⟩, false⟩ [.ident ⟨33, 34⟩ "x"]]⟩, []⟩).Contains (.ident span "v") := by
    have ident : ∀ (inner : Term) (span : Span) (name : String),
        inner.Within (.ident span name) ↔ inner = .ident span name := by
      intro inner span name
      rw [Term.within_iff]
      simp [Term.parts]
    have call : ∀ (inner : Term) (span : Span) (head : CallHead) (args : List Term),
        inner.Within (.call span head args) ↔ inner = .call span head args ∨ ∃ arg ∈ args, inner.Within arg := fun _ _ _ _ =>
      Term.within_iff
    simp [Script.Contains, Script.following, Script.statements, ScriptStatement.pipe, ident, call]
  exact ⟨_, _, _, _, fresh, (cutting_is_invisible .sqlite .sqlserver true _ _ _ _).2 "v" ⟨0, 0⟩ ⟨0, 0⟩ fresh,
    by decide +kernel⟩

end PipeSql
