import PipeSql.Proofs.Pipeline.Cut

set_option autoImplicit false

namespace PipeSql

namespace Lowering

variable {α β : Type}

def within (rows : List String) (inner : Lowering α) : Lowering α :=
  withReader (fun scope => { scope with rows := rows }) inner

-- A dotted name loses the row in front of it. A row alone is no dotted name.
def resolved (rows : List String) : List String → List String
  | first :: second :: rest =>
    if Text.asciiLower first ∈ rows.map Text.asciiLower then second :: rest else first :: second :: rest
  | parts => parts

theorem strip_row_resolved (scope : Scope) (parts : List String) :
    scope.stripRow parts = resolved scope.rows parts := by
  rcases parts with _ | ⟨first, _ | ⟨second, rest⟩⟩
  · rfl
  · rfl
  · have same : (scope.rows.any fun row => Text.sameWord row first) = true ↔
        Text.asciiLower first ∈ scope.rows.map Text.asciiLower := by
      simp only [List.any_eq_true, List.mem_map, Text.sameWord, beq_iff_eq]
    simp only [Scope.stripRow, resolved, same]

theorem resolved_nil (parts : List String) : resolved [] parts = parts := by
  unfold resolved
  split
  · exact if_neg List.not_mem_nil
  · rfl

variable (rows : List String)

theorem within_pure (value : α) : within rows (pure value) = pure value := rfl

theorem within_bind (first : Lowering α) (next : α → Lowering β) :
    within rows (first >>= next) = within rows first >>= fun value => within rows (next value) := rfl

theorem within_congr {rows others : List String} {first twin : Lowering α} {next after : α → Lowering β}
    (same : within others twin = within rows first)
    (rest : ∀ value, within others (after value) = within rows (next value)) :
    within others (twin >>= after) = within rows (first >>= next) := by
  simp only [within_bind, same, rest]

theorem within_refuse (misuse : Misuse) (span : Span) :
    within rows (refuse misuse span : Lowering α) = refuse misuse span := rfl

theorem within_write (node : Node) : within rows (writeNode node) = writeNode node := by
  funext scope parameters
  exact (write_node_eq node _ parameters).trans (write_node_eq node scope parameters).symm

theorem within_stripped (parts : List String) (next : List String → α) :
    within rows (do return next ((← read).stripRow parts)) = pure (next (resolved rows parts)) := by
  funext scope parameters
  change Except.ok (next (Scope.stripRow { scope with rows := rows } parts), parameters) = _
  rw [strip_row_resolved]
  rfl

end Lowering

open Lowering

-- Whether the dotted names among the arguments stand for tables or for columns of a result. They are kept as they
-- are written, even where they start with a row.
def Operation.keepsNames : Operation → Bool
  | .innerJoin | .leftJoin | .crossJoin | .insert | .select | .selectDistinct | .groupBy => true
  | .filter | .having | .orderBy | .limit | .offset | .union | .unionAll => false

def Operation.keepsNamesOf (name : String) : Bool :=
  (ofName? name).any keepsNames

namespace Stage

def lowered (queryText : QueryText) (current : Option String) (term : Term) : Lowering (Step Node) :=
  match ofTerm? term with
  | none => refuse .notAnOperation term.span
  | some stage => stage.step queryText current

theorem steps_cons (queryText : QueryText) (current : Option String) (term : Term) (rest : List Term) :
    steps queryText current (term :: rest) = (do
      let first ← lowered queryText current term
      let others ← steps queryText (tableAfter current first) rest
      return first :: others) := by
  rw [steps, lowered]
  cases ofTerm? term <;> rfl

end Stage

-- Rows of lambdas are renamed together with the dotted names that start with them, and a stage may become one
-- that has the same step.
structure Revision where
  rows : List String → List String
  name : List String → List String → List String
  operation : Term → Term
  rows_append : ∀ outer inner, rows (outer ++ inner) = rows outer ++ rows inner
  name_resolved : ∀ outer parts, resolved (rows outer) (name outer parts) = resolved outer parts
  operation_lowered : ∀ queryText current term,
    Stage.lowered queryText current (operation term) = Stage.lowered queryText current term

theorem Revision.rows_nil (revision : Revision) : revision.rows [] = [] :=
  List.self_eq_append_right.1 (revision.rows_append [] [])

namespace Term

mutual

-- Only dotted names are `kept`, and the names below an alias with them.
def revised (revision : Revision) (kept : Bool) (rows : List String) : Term → Term
  | .ident span name => .ident span name
  | .qualified span parts => .qualified span (if kept then parts else revision.name rows parts)
  | .wildcard span table => .wildcard span table
  | .param span name => .param span name
  | .literal span value => .literal span value
  | .call span head args => .call span head (revisedAll revision false rows args)
  | .windowed span head args partitionBy orderBy =>
    .windowed span head (revisedAll revision false rows args) (revisedAll revision false rows partitionBy)
      (revisedAll revision false rows orderBy)
  | .lambda span params body =>
    .lambda span (revision.rows params) (body.revised revision false (rows ++ params))
  | .cases span operand branches otherwise =>
    .cases span (revisedOption revision rows operand) (revisedBranches revision rows branches)
      (revisedOption revision rows otherwise)
  | .binary span op left right => .binary span op (left.revised revision false rows) (right.revised revision false rows)
  | .unary span op operand => .unary span op (operand.revised revision false rows)
  | .isNull span operand negated => .isNull span (operand.revised revision false rows) negated
  | .inList span operand items negated =>
    .inList span (operand.revised revision false rows) (revisedAll revision false rows items) negated
  | .like span operand pattern negated =>
    .like span (operand.revised revision false rows) (pattern.revised revision false rows) negated
  | .exists span source stages =>
    .exists span (source.revised revision false rows) (revisedStages revision rows stages)
  | .paren span inner => .paren span (inner.revised revision false rows)
  | .pipe span source stages => .pipe span (source.revised revision false rows) (revisedStages revision rows stages)
  | .aliased span inner label => .aliased span (inner.revised revision kept rows) label
  | .ordered span inner direction => .ordered span (inner.revised revision false rows) direction
  | .named span name value => .named span name (value.revised revision false rows)

def revisedAll (revision : Revision) (kept : Bool) (rows : List String) : List Term → List Term
  | [] => []
  | term :: rest => term.revised revision kept rows :: revisedAll revision kept rows rest

def revisedOption (revision : Revision) (rows : List String) : Option Term → Option Term
  | none => none
  | some term => some (term.revised revision false rows)

def revisedBranches (revision : Revision) (rows : List String) : List (Term × Term) → List (Term × Term)
  | [] => []
  | (condition, value) :: rest =>
    (condition.revised revision false rows, value.revised revision false rows) :: revisedBranches revision rows rest

def revisedStages (revision : Revision) (rows : List String) : List Term → List Term
  | [] => []
  | .call span head args :: rest =>
    revision.operation (.call span head (revisedAll revision (Operation.keepsNamesOf head.name) rows args)) ::
      revisedStages revision rows rest
  | .windowed span head args partitionBy orderBy :: rest =>
    revision.operation (.windowed span head (revisedAll revision (Operation.keepsNamesOf head.name) rows args)
      (revisedAll revision false rows partitionBy) (revisedAll revision false rows orderBy)) ::
      revisedStages revision rows rest
  | stage :: rest => stage.revised revision false rows :: revisedStages revision rows rest

end

end Term

def Pipe.revised (revision : Revision) (pipe : Pipe) : Pipe :=
  ⟨pipe.source.revised revision false [], Term.revisedStages revision [] pipe.stages⟩

def ScriptStatement.revised (revision : Revision) : ScriptStatement → ScriptStatement
  | .bind name span value => .bind name span (value.revised revision)
  | .query value => .query (value.revised revision)

def Script.revised (revision : Revision) (script : Script) : Script :=
  ⟨script.first.revised revision, script.others.map (ScriptStatement.revised revision)⟩

namespace Term

variable {revision : Revision} {left right : QueryText}

theorem revised_span (kept : Bool) (rows : List String) (term : Term) :
    (term.revised revision kept rows).span = term.span := by
  cases term <;> rfl

theorem revised_number (kept : Bool) (rows : List String) (term : Term) :
    (term.revised revision kept rows).isNumber = term.isNumber := by
  induction term using parts_induction generalizing kept with
  | step term ih =>
    cases term with
    | literal span value => cases value <;> rfl
    | unary span op operand =>
      cases op with
      | negate => exact ih operand (.head _) false
      | not => rfl
    | _ => rfl

theorem revised_binary (kept : Bool) (rows : List String) (term : Term) :
    (term.revised revision kept rows).isBinary = term.isBinary := by
  cases term <;> rfl

theorem revised_parens (kept : Bool) (rows : List String) (op : Operator) (term : Term) (onRight : Bool) :
    needsParens op (term.revised revision kept rows) onRight = needsParens op term onRight := by
  cases term <;> rfl

theorem revised_named (kept : Bool) (rows : List String) (term : Term) :
    (term.revised revision kept rows).isNamed = term.isNamed := by
  cases term <;> rfl

section

variable (revision : Revision) (rows : List String)

theorem revised_all_map (kept : Bool) (terms : List Term) :
    revisedAll revision kept rows terms = terms.map (revised revision kept rows) := by
  induction terms with
  | nil => rfl
  | cons term rest ih => exact congrArg (term.revised revision kept rows :: ·) ih

theorem revised_branches_map (branches : List (Term × Term)) :
    revisedBranches revision rows branches =
      branches.map fun branch => (branch.1.revised revision false rows, branch.2.revised revision false rows) := by
  induction branches with
  | nil => rfl
  | cons branch rest ih => exact congrArg (_ :: ·) ih

end

end Term

def Chunk.revised (revision : Revision) (rows : List String) : Chunk → Chunk
  | .token (.qualified parts) => .token (.qualified (revision.name rows parts))
  | .query source stages => .query (source.revised revision false rows) (Term.revisedStages revision rows stages)
  | chunk => chunk

namespace Term

open Chunk

variable {revision : Revision} {left right : QueryText}

theorem revised_alters (revision : Revision) (rows : List String) :
    Alters (revised revision false rows) (Chunk.revised revision rows) where
  blank := rfl
  keyword _ := rfl
  symbol _ := rfl
  ident _ := rfl
  call _ _ := rfl
  flat term flat := by
    cases term with
    | ident | qualified | param | lambda | «exists» | pipe | named => rfl
    | wildcard span table => cases table <;> rfl
    | literal span value => cases value <;> rfl
    | _ => cases flat
  deep term deep := by
    have option : ∀ given : Option Term, revisedOption revision rows given = given.map (revised revision false rows) := by
      intro given
      cases given <;> rfl
    have all := revised_all_map revision rows false
    cases term with
    | call span head args => exact congrArg (fun args => called head (listChunks args)) (all args)
    | windowed span head args partitionBy orderBy =>
      change (Term.windowed span head _ _ _).chunks = (Term.windowed span head _ _ _).chunks
      rw [all, all, all]
    | cases span operand branches otherwise =>
      change (Term.cases span _ _ _).chunks = (Term.cases span _ _ _).chunks
      rw [option, option, revised_branches_map]
    | inList span operand items negated =>
      change (Term.inList span _ _ negated).chunks = (Term.inList span _ _ negated).chunks
      rw [all]
    | binary | unary | isNull | like | paren | aliased | ordered => rfl
    | _ => cases deep
  binary := revised_binary false rows
  parens := revised_parens false rows
  number := revised_number false rows
  besides number term := by
    cases term with
    | param span name => cases number <;> rfl
    | _ => rfl
  lone term := by cases term <;> rfl

-- What a term becomes under the rows of its lambdas, it becomes under the revised rows as a revised term.
def QueriesRevised (revision : Revision) (left right : QueryText) : Prop :=
  ∀ rows source stages, within (revision.rows rows)
      (right (source.revised revision false rows) (revisedStages revision rows stages)) =
    within rows (left source stages)

theorem revised_chunk (queries : QueriesRevised revision left right) (rows : List String) (chunk : Chunk) :
    within (revision.rows rows) ((chunk.revised revision rows).text right) = within rows (chunk.text left) := by
  cases chunk with
  | token lexeme =>
    cases lexeme with
    | qualified parts =>
      refine (within_stripped _ _ (Text.joinWith ".")).trans ?_
      rw [revision.name_resolved]
      exact (within_stripped rows parts (Text.joinWith ".")).symm
    | _ => rfl
  | query source stages => exact queries rows source stages
  | blank | call | numeric | refusal => rfl

theorem revised_chunks (queries : QueriesRevised revision left right) (rows : List String) (chunks : List Chunk) :
    within (revision.rows rows) (print (Chunk.text right) (chunks.map (Chunk.revised revision rows))) =
      within rows (print (Chunk.text left) chunks) := by
  induction chunks with
  | nil => rfl
  | cons chunk rest ih =>
    simp only [List.map_cons, print, within_bind, within_pure, revised_chunk queries rows chunk, ih]

theorem revised_text (queries : QueriesRevised revision left right) (term : Term) (rows : List String) :
    within (revision.rows rows) ((term.revised revision false rows).text right) = within rows (term.text left) := by
  rw [text_chunks, text_chunks, chunks_altered (revised_alters revision rows), revised_chunks queries]

theorem revised_compared (queries : QueriesRevised revision left right) (rows : List String) (first second : Term) :
    within (revision.rows rows)
        (declareCompared (first.revised revision false rows) (second.revised revision false rows)) =
      within rows (declareCompared first second) := by
  rw [declare_compared_chunks right, declare_compared_chunks left, compared_altered (revised_alters revision rows),
    within_bind, revised_chunks queries]
  rfl

theorem revised_entries (queries : QueriesRevised revision left right) (rows : List String) (items : List Term) :
    within (revision.rows rows) (entriesText right (revisedAll revision false rows items)
        (texts right (revisedAll revision false rows items))) =
      within rows (entriesText left items (texts left items)) := by
  have alters := revised_alters revision rows
  rw [list_text_chunks, list_text_chunks, revised_all_map,
    entries_altered alters items fun item _ => chunks_altered alters item, revised_chunks queries]

theorem revised_body_text (queries : QueriesRevised revision left right) (rows : List String) (term : Term) :
    within (revision.rows rows) ((term.revised revision false rows).bodyText right) =
      within rows (term.bodyText left) := by
  cases term with
  | lambda span params body =>
    have inner := revised_text queries body (rows ++ params)
    rw [revision.rows_append] at inner
    exact inner
  | _ => exact revised_text queries _ rows

theorem revised_text_column (queries : QueriesRevised revision left right) (rows : List String) (term : Term) :
    within (revision.rows rows) (do return Column.ofText (← (term.revised revision false rows).text right)) =
      within rows (do return Column.ofText (← term.text left)) :=
  within_congr (revised_text queries term rows) fun _ => rfl

theorem revised_operand (queries : QueriesRevised revision left right) (rows : List String) (term : Term) :
    within (revision.rows rows) ((term.revised revision false rows).operandColumn right) =
      within rows (term.operandColumn left) := by
  have written := revised_text_column queries rows term
  cases term with
  | ident => rfl
  | qualified span parts =>
    refine (within_stripped _ _ namedColumn).trans ?_
    rw [if_neg Bool.false_ne_true, revision.name_resolved]
    exact (within_stripped rows parts namedColumn).symm
  | _ => exact written

theorem revised_condition (queries : QueriesRevised revision left right) (rows : List String) (term : Term) :
    within (revision.rows rows) ((term.revised revision false rows).condition right) =
      within rows (term.condition left) := by
  have stated : within (revision.rows rows)
      (do return (.expression (← (term.revised revision false rows).text right) : Condition Column)) =
      within rows (do return .expression (← term.text left)) :=
    within_congr (revised_text queries term rows) fun _ => rfl
  cases term with
  | binary span op first second =>
    change within _ (if op.isComparison then _ else _) = within rows (if op.isComparison then _ else _)
    cases op.isComparison with
    | true =>
      refine within_congr (revised_compared queries rows first second) fun _ => ?_
      refine within_congr (revised_operand queries rows first) fun _ => ?_
      exact within_congr (revised_text queries second rows) fun _ => rfl
    | false => exact stated
  | isNull span operand negated => exact within_congr (revised_operand queries rows operand) fun _ => rfl
  | inList span operand items negated =>
    cases negated with
    | true => exact stated
    | false =>
      refine within_congr (revised_operand queries rows operand) fun _ => ?_
      exact within_congr (revised_entries queries rows items) fun _ => rfl
  | like span operand pattern negated =>
    cases negated with
    | true => exact stated
    | false =>
      refine within_congr (revised_operand queries rows operand) fun _ => ?_
      exact within_congr (revised_text queries pattern rows) fun _ => rfl
  | _ => exact stated

theorem revised_conditions (queries : QueriesRevised revision left right) (rows : List String) (term : Term) :
    within (revision.rows rows) ((term.revised revision false rows).conditions right) =
      within rows (term.conditions left) := by
  induction term using parts_induction with
  | step term ih =>
    have single : within (revision.rows rows) (do return [← (term.revised revision false rows).condition right]) =
        within rows (do return [← term.condition left]) :=
      within_congr (revised_condition queries rows term) fun _ => rfl
    cases term with
    | binary span op first second =>
      cases op with
      | and | or =>
        refine within_congr (ih first (.head _)) fun _ => ?_
        exact within_congr (ih second (.tail _ (.head _))) fun _ => rfl
      | _ => exact single
    | paren span inner => exact within_congr (ih inner (.head _)) fun _ => rfl
    | _ => exact single

theorem revised_column (queries : QueriesRevised revision left right) (rows : List String) (term : Term) :
    within (revision.rows rows) ((term.revised revision true rows).column right) = within rows (term.column left) := by
  induction term using parts_induction with
  | step term ih =>
    have written := revised_text_column queries rows term
    cases term with
    | aliased span inner label => exact within_congr (ih inner (.head _)) fun _ => rfl
    | ident | qualified | wildcard | pipe | lambda | named | ordered => rfl
    | _ => exact written

theorem revised_columns (queries : QueriesRevised revision left right) (rows : List String) (terms : List Term) :
    within (revision.rows rows) (columns right (revisedAll revision true rows terms)) =
      within rows (columns left terms) := by
  induction terms with
  | nil => rfl
  | cons term rest ih => exact within_congr (revised_column queries rows term) fun _ => within_congr ih fun _ => rfl

theorem revised_order_item (queries : QueriesRevised revision left right) (rows : List String) (term : Term) :
    within (revision.rows rows) ((term.revised revision false rows).orderItem right) =
      within rows (term.orderItem left) := by
  have plain : within (revision.rows rows)
        (do return (⟨← (term.revised revision false rows).bodyText right, .asc⟩ : OrderItem)) =
      within rows (do return ⟨← term.bodyText left, .asc⟩) :=
    within_congr (revised_body_text queries rows term) fun _ => rfl
  cases term with
  | ordered span inner direction =>
    cases direction <;> exact within_congr (revised_body_text queries rows inner) fun _ => rfl
  | _ => exact plain

theorem revised_order_items (queries : QueriesRevised revision left right) (rows : List String) (terms : List Term) :
    within (revision.rows rows) (orderItems right (revisedAll revision false rows terms)) =
      within rows (orderItems left terms) := by
  induction terms with
  | nil => rfl
  | cons term rest ih => exact within_congr (revised_order_item queries rows term) fun _ => within_congr ih fun _ => rfl

end Term

namespace Stage

variable {revision : Revision} {left right : QueryText}

theorem revised_table (rows : List String) (span nameSpan : Span) (name : String) (args : List Term) :
    table ⟨span, name, nameSpan, Term.revisedAll revision true rows args⟩ =
      table ⟨span, name, nameSpan, args⟩ := by
  have same : ((Term.revisedAll revision true rows args).find? fun arg => !arg.isNamed).bind tableOf? =
      (args.find? fun arg => !arg.isNamed).bind tableOf? := by
    induction args with
    | nil => rfl
    | cons arg rest ih =>
      rw [Term.revised_all_map, List.map_cons, ← Term.revised_all_map, List.find?_cons, List.find?_cons,
        Term.revised_named]
      cases arg.isNamed with
      | true => exact ih
      | false =>
        cases arg with
        | aliased span inner label => cases inner <;> rfl
        | _ => rfl
  unfold table
  rw [same]

theorem revised_named_arg (kept : Bool) (rows : List String) (name : String) (args : List Term) :
    named? name (Term.revisedAll revision kept rows args) =
      (named? name args).map (Term.revised revision false rows) := by
  induction args with
  | nil => rfl
  | cons arg rest ih =>
    cases arg with
    | named span given value =>
      change (if Text.sameWord given name then _ else _) = Option.map _ (if Text.sameWord given name then _ else _)
      split
      · rfl
      · exact ih
    | _ => exact ih

theorem within_table (rows : List String) (stage : Stage) : within rows stage.table = stage.table := by
  unfold table
  cases (stage.args.find? fun arg => !arg.isNamed).bind tableOf? <;> rfl

theorem revised_join (queries : Term.QueriesRevised revision left right) (current : Option String) (joinType : String)
    (rows : List String) (span nameSpan : Span) (name : String) (args : List Term) :
    within (revision.rows rows)
        (join right current joinType ⟨span, name, nameSpan, Term.revisedAll revision true rows args⟩) =
      within rows (join left current joinType ⟨span, name, nameSpan, args⟩) := by
  simp only [join, within_bind, revised_table, within_table, revised_named_arg]
  cases named? "on" args with
  | none =>
    simp only [Option.map_none]
    split <;> rfl
  | some term =>
    simp only [Option.map_some, map_eq_pure_bind, within_bind, within_pure, Term.revised_body_text queries rows term]

-- What is done with the only argument is the same, if it is the same for each argument.
theorem revised_argument {α : Type} {lower twin : Term → Lowering α} (rows : List String) (span nameSpan : Span)
    (name : String) (args : List Term)
    (each : ∀ arg, within (revision.rows rows) (twin (arg.revised revision false rows)) = within rows (lower arg)) :
    within (revision.rows rows)
        (onlyArgument ⟨span, name, nameSpan, Term.revisedAll revision false rows args⟩ >>= twin) =
      within rows (onlyArgument ⟨span, name, nameSpan, args⟩ >>= lower) := by
  rcases args with _ | ⟨arg, _ | ⟨second, rest⟩⟩
  · rfl
  · exact each arg
  · rfl

theorem revised_filter (queries : Term.QueriesRevised revision left right) (rows : List String) (term : Term) :
    within (revision.rows rows) (filterConditions right (term.revised revision false rows)) =
      within rows (filterConditions left term) := by
  have plain := Term.revised_conditions queries rows term
  cases term with
  | lambda span params body =>
    have inner := Term.revised_conditions queries (rows ++ params) body
    rw [revision.rows_append] at inner
    exact within_congr inner fun _ => rfl
  | _ => exact within_congr plain fun _ => rfl

theorem revised_count (queries : Term.QueriesRevised revision left right) (rows : List String) (term : Term) :
    within (revision.rows rows) (count right (term.revised revision false rows)) = within rows (count left term) := by
  cases term with
  | param span name => rfl
  | _ => exact Term.revised_text queries _ rows

theorem revised_union (queries : Term.QueriesRevised revision left right) (rows : List String) (span nameSpan : Span)
    (name : String) (args : List Term) :
    within (revision.rows rows)
        (unionQuery right ⟨span, name, nameSpan, Term.revisedAll revision false rows args⟩) =
      within rows (unionQuery left ⟨span, name, nameSpan, args⟩) := by
  refine revised_argument rows span nameSpan name args fun arg => ?_
  cases arg with
  | ident | paren | pipe => exact queries rows _ []
  | _ => rfl

theorem revised_step (queries : Term.QueriesRevised revision left right) (current : Option String)
    (rows : List String) (span nameSpan : Span) (name : String) (args : List Term) :
    within (revision.rows rows) (step right current
        ⟨span, name, nameSpan, Term.revisedAll revision (Operation.keepsNamesOf name) rows args⟩) =
      within rows (step left current ⟨span, name, nameSpan, args⟩) := by
  unfold step Operation.keepsNamesOf
  dsimp only
  cases Operation.ofName? name with
  | none => rfl
  | some operation =>
    cases operation with
    | innerJoin | leftJoin | crossJoin => exact revised_join queries current _ rows span nameSpan name args
    | filter =>
      refine revised_argument rows span nameSpan name args fun arg => ?_
      simp only [within_bind, within_pure, revised_filter queries rows arg]
    | having =>
      refine revised_argument rows span nameSpan name args fun arg => ?_
      simp only [within_bind, within_pure, Term.revised_body_text queries rows arg]
    | select | selectDistinct | groupBy =>
      simp only [Option.any_some, Operation.keepsNames, within_bind, within_pure,
        Term.revised_columns queries rows args]
    | orderBy =>
      simp only [Option.any_some, Operation.keepsNames, within_bind, within_pure,
        Term.revised_order_items queries rows args]
    | limit | offset =>
      refine revised_argument rows span nameSpan name args fun arg => ?_
      simp only [within_bind, within_pure, revised_count queries rows arg]
    | union | unionAll =>
      simp only [Option.any_some, Operation.keepsNames, within_bind, within_pure,
        revised_union queries rows span nameSpan name args]
    | insert =>
      simp only [Option.any_some, Operation.keepsNames, within_bind, within_pure, revised_table, within_table]

theorem revised_steps (queries : Term.QueriesRevised revision left right) (current : Option String)
    (rows : List String) (stages : List Term) :
    within (revision.rows rows) (steps right current (Term.revisedStages revision rows stages)) =
      within rows (steps left current stages) := by
  induction stages generalizing current with
  | nil => rfl
  | cons stage rest ih =>
    have followed (twin : Term)
        (same : within (revision.rows rows) (lowered right current twin) = within rows (lowered left current stage)) :
        within (revision.rows rows) (steps right current (twin :: Term.revisedStages revision rows rest)) =
          within rows (steps left current (stage :: rest)) := by
      simp only [steps_cons, within_bind, within_pure, same, ih]
    cases stage with
    | call span head args =>
      apply followed
      rw [revision.operation_lowered]
      exact revised_step queries current rows span head.nameSpan head.name args
    | windowed span head args partitionBy orderBy =>
      apply followed
      rw [revision.operation_lowered]
      exact revised_step queries current rows span head.nameSpan head.name args
    | _ => exact followed _ rfl

theorem revised_through (queries : Term.QueriesRevised revision left right) (base : Node) (rows : List String)
    (stages : List Term) :
    within (revision.rows rows) (through right base (Term.revisedStages revision rows stages)) =
      within rows (through left base stages) := by
  have each := revised_steps queries base.lastTable? rows stages
  cases stages with
  | nil => rfl
  | cons stage rest => cases stage <;> exact within_congr each fun _ => rfl

end Stage

variable {revision : Revision}

theorem Term.revised_source {left right : QueryText} (queries : QueriesRevised revision left right)
    (rows : List String) (term : Term) :
    within (revision.rows rows) ((term.revised revision false rows).source right) = within rows (term.source left) := by
  induction term using parts_induction with
  | step term ih =>
    cases term with
    | ident => rfl
    | paren span inner => exact ih inner (.head _)
    | pipe span source stages =>
      exact within_congr (ih source (.head _)) fun base => Stage.revised_through queries base rows stages
    | _ => rfl

namespace Pipe

theorem revised_node_with {left right : QueryText} (queries : Term.QueriesRevised revision left right)
    (rows : List String) (source : Term) (stages : List Term) :
    within (revision.rows rows)
        (nodeWith right ⟨source.revised revision false rows, Term.revisedStages revision rows stages⟩) =
      within rows (nodeWith left ⟨source, stages⟩) := by
  simp only [nodeWith, within_bind, Term.revised_source queries rows source,
    Stage.revised_through queries _ rows stages]

theorem queries_revised (depth : Nat) : Term.QueriesRevised revision (textWithin depth) (textWithin depth) := by
  induction depth with
  | zero =>
    intro rows source stages
    simp only [textWithin, within_refuse, Term.revised_span]
  | succ depth ih =>
    intro rows source stages
    simp only [textWithin, within_bind, within_write, revised_node_with ih rows source stages]

theorem revised_node (pipe : Pipe) : within [] (pipe.revised revision).node = within [] pipe.node := by
  have deep := @queries_revised revision (max pipe.height (pipe.revised revision).height)
  rw [← node_with_deep pipe (Nat.le_max_left _ (pipe.revised revision).height),
    ← node_with_deep (pipe.revised revision) (Nat.le_max_right pipe.height _)]
  have same := revised_node_with deep [] pipe.source pipe.stages
  rw [revision.rows_nil] at same
  exact same

end Pipe

namespace Plan

theorem within_binding {α : Type} (rows : List String) (name : String) (node : Node) (inner : Lowering α) :
    within rows (withBinding name node inner) = withBinding name node (within rows inner) := rfl

theorem revised_pipe (statement : ScriptStatement) :
    (statement.revised revision).pipe = statement.pipe.revised revision := by
  cases statement <;> rfl

theorem last_node_revised (revision : Revision) (statement : ScriptStatement) (rest : List ScriptStatement) :
    within [] (lastNode (statement.revised revision) (rest.map (ScriptStatement.revised revision))) =
      within [] (lastNode statement rest) := by
  induction rest generalizing statement with
  | nil =>
    simp only [List.map_nil, lastNode, revised_pipe, Pipe.revised_node]
  | cons next rest ih =>
    cases statement with
    | bind name span value =>
      change within [] (do
          let node ← (value.revised revision).node
          withBinding name node (lastNode (next.revised revision) (rest.map (ScriptStatement.revised revision)))) =
        within [] (do
          let node ← value.node
          withBinding name node (lastNode next rest))
      simp only [within_bind, within_binding, Pipe.revised_node, ih next]
    | query value =>
      change within [] (do
          let _ ← (value.revised revision).node
          lastNode (next.revised revision) (rest.map (ScriptStatement.revised revision))) =
        within [] (do
          let _ ← value.node
          lastNode next rest)
      simp only [within_bind, Pipe.revised_node, ih next]

theorem of_script_revised (revision : Revision) (dialect : Dialect) (script : Script) :
    ofScript dialect (script.revised revision) = ofScript dialect script := by
  have same := congrFun (congrFun (last_node_revised revision script.first script.others) ⟨dialect, [], []⟩) []
  rw [of_script_eq, of_script_eq]
  exact congrArg _ same

end Plan

end PipeSql
