import PipeSql.Proofs.Pipeline.OfScript

set_option autoImplicit false

namespace PipeSql

namespace Lowering

-- Names outside of `known` are not asked for, and only queries that `asked` relates are handed on.
inductive Parallel (place : Span → Span) (known : String → Prop) (asked : Lowering String → Lowering String → Prop) :
    {α : Type} → Lowering α → Lowering α → Prop where
  | pure {α : Type} (value : α) : Parallel place known asked (pure value) (pure value)
  | bind {α β : Type} {left right : Lowering α} {next after : α → Lowering β}
      (first : Parallel place known asked left right)
      (others : ∀ value, Parallel place known asked (next value) (after value)) :
      Parallel place known asked (left >>= next) (right >>= after)
  | refuse {α : Type} (misuse : Misuse) (span : Span) :
      Parallel place known asked (refuse misuse span : Lowering α) (refuse misuse (place span))
  | declare (name sqlType : String) : Parallel place known asked (declare name sqlType) (declare name sqlType)
  | stripped {α : Type} (parts : List String) (next : List String → α) :
      Parallel place known asked (do return next ((← read).stripRow parts)) (do return next ((← read).stripRow parts))
  | lookup (name : String) (found : known name) :
      Parallel place known asked (do return (← read).node name) (do return (← read).node name)
  | rows {α : Type} {left right : Lowering α} (names : List String) (inner : Parallel place known asked left right) :
      Parallel place known asked (withRows names left) (withRows names right)
  | query {left right : Lowering String} (both : asked left right) : Parallel place known asked left right

variable {place : Span → Span} {known : String → Prop} {asked : Lowering String → Lowering String → Prop}

theorem parallel_map {α β : Type} {left right : Lowering α} (next : α → β)
    (first : Parallel place known asked left right) :
    Parallel place known asked (do return next (← left)) (do return next (← right)) :=
  .bind first fun value => .pure (next value)

end Lowering

open Lowering

namespace Term

open Chunk

variable {place : Span → Span} {known : String → Prop} {asked : Lowering String → Lowering String → Prop}
  {size : Nat} {left right : QueryText}

-- The names of a term are known, and its queries are lower than `size`.
structure Fits (known : String → Prop) (size : Nat) (term : Term) : Prop where
  height : term.height ≤ size
  names : ∀ span name, (Term.ident span name).Within term → known name

theorem mapped_span (contents : String → String) (place : Span → Span) (term : Term) :
    (term.mapped contents place).span = place term.span := by
  cases term <;> rfl

theorem part_fits {term part : Term} (fits : term.Fits known size) (member : part ∈ term.parts) :
    part.Fits known size where
  height := Nat.le_trans (Nat.le_of_lt (part_height term part member)) fits.height
  names span name within := fits.names span name (.deeper _ part term member within)

-- Queries that are lower than `size` are related once their terms are moved.
def QueriesParallel (place : Span → Span) (known : String → Prop) (asked : Lowering String → Lowering String → Prop)
    (size : Nat) (left right : QueryText) : Prop :=
  ∀ source stages, (Pipe.mk source stages).height < size → (∀ term ∈ source :: stages, term.Fits known size) →
    asked (left source stages) (right (source.mapped id place) (mappedAll id place stages))

def TextParallel (place : Span → Span) (known : String → Prop) (asked : Lowering String → Lowering String → Prop)
    (left right : QueryText) (term : Term) : Prop :=
  Parallel place known asked (term.text left) ((term.mapped id place).text right)

theorem chunk_parallel (queries : QueriesParallel place known asked size left right) {term : Term}
    (fits : term.Fits known size) {chunk : Chunk} (within : chunk.Within term) :
    Parallel place known asked (chunk.text left) ((chunk.mapped id place).text right) := by
  cases chunk with
  | blank => exact .pure " "
  | token lexeme =>
    cases lexeme with
    | qualified parts => exact .stripped parts (Text.joinWith ".")
    | param name => exact .bind (.declare name "TEXT") fun _ => .pure ("@" ++ name)
    | _ => exact .pure _
  | call name empty => exact .pure _
  | numeric name => exact .bind (.declare name "NUMERIC") fun _ => .pure ""
  | query source stages =>
    obtain ⟨holder, inner, query, parts⟩ := within
    have whole : holder.Fits known size := within_inherits part_fits inner fits
    refine .query (queries source stages ?_ fun part member => part_fits whole (parts ▸ member))
    exact Nat.lt_of_lt_of_le (query_height query parts) whole.height
  | refusal misuse span => exact .refuse misuse span

theorem chunks_parallel (queries : QueriesParallel place known asked size left right) {term : Term}
    (fits : term.Fits known size) {chunks : List Chunk} (within : ∀ chunk ∈ chunks, chunk.Within term) :
    Parallel place known asked (print (Chunk.text left) chunks)
      (print (Chunk.text right) (chunks.map (Chunk.mapped id place))) := by
  induction chunks with
  | nil => exact .pure ""
  | cons chunk rest ih =>
    refine .bind (chunk_parallel queries fits (within chunk (.head _))) fun _ => ?_
    exact parallel_map _ (ih fun other member => within other (.tail _ member))

theorem text_parallel (queries : QueriesParallel place known asked size left right) (term : Term)
    (fits : term.Fits known size) : TextParallel place known asked left right term := by
  rw [TextParallel, text_chunks, text_chunks, chunks_altered (mapped_alters id place)]
  exact chunks_parallel queries fits (chunks_spaced term).within

theorem body_parallel (queries : QueriesParallel place known asked size left right) (term : Term)
    (fits : term.Fits known size) :
    Parallel place known asked (term.bodyText left) ((term.mapped id place).bodyText right) := by
  have plain := text_parallel queries term fits
  cases term with
  | lambda span params body => exact .rows params (text_parallel queries body (part_fits fits (.head _)))
  | _ => exact plain

theorem operand_parallel (queries : QueriesParallel place known asked size left right) (term : Term)
    (fits : term.Fits known size) :
    Parallel place known asked (term.operandColumn left) ((term.mapped id place).operandColumn right) := by
  have listed := parallel_map Column.ofText (text_parallel queries term fits)
  cases term with
  | ident span name => exact .pure _
  | qualified span parts => exact .stripped parts namedColumn
  | _ => exact listed

theorem condition_parallel (queries : QueriesParallel place known asked size left right) (term : Term)
    (fits : term.Fits known size) :
    Parallel place known asked (term.condition left) ((term.mapped id place).condition right) := by
  have alters := mapped_alters id place
  have phrase := parallel_map (@Condition.expression Column) (text_parallel queries term fits)
  have operand : ∀ part ∈ term.parts, Parallel place known asked (part.operandColumn left)
      ((part.mapped id place).operandColumn right) := fun part member =>
    operand_parallel queries part (part_fits fits member)
  have inner : ∀ part ∈ term.parts, TextParallel place known asked left right part := fun part member =>
    text_parallel queries part (part_fits fits member)
  cases term with
  | binary span op first second =>
    rw [mapped, condition, condition]
    cases comparison : op.isComparison with
    | false => exact phrase
    | true =>
      have declared : Parallel place known asked (declareCompared first second)
          (declareCompared (first.mapped id place) (second.mapped id place)) := by
        rw [declare_compared_chunks left, declare_compared_chunks right, compared_altered alters]
        exact parallel_map _ (chunks_parallel queries fits (compared_linked comparison (chunks_spaced _)).within)
      refine .bind declared fun _ => .bind (operand first (.head _)) fun _ => ?_
      exact parallel_map _ (inner second (.tail _ (.head _)))
  | isNull span tested negated => exact parallel_map _ (operand tested (.head _))
  | inList span tested items negated =>
    cases negated with
    | true => exact phrase
    | false =>
      refine .bind (operand tested (.head _)) fun _ => parallel_map _ ?_
      rw [list_text_chunks, list_text_chunks, mapped_all,
        entries_altered alters items fun item _ => chunks_altered alters item]
      exact chunks_parallel queries fits (entries_linked (chunks_spaced _)).within
  | like span tested pattern negated =>
    cases negated with
    | true => exact phrase
    | false => exact .bind (operand tested (.head _)) fun _ => parallel_map _ (inner pattern (.tail _ (.head _)))
  | _ => exact phrase

theorem conditions_parallel (queries : QueriesParallel place known asked size left right) (term : Term)
    (fits : term.Fits known size) :
    Parallel place known asked (term.conditions left) ((term.mapped id place).conditions right) := by
  induction term using parts_induction with
  | step term ih =>
    have inner : ∀ part ∈ term.parts, Parallel place known asked (part.conditions left)
        ((part.mapped id place).conditions right) := fun part member => ih part member (part_fits fits member)
    have single := parallel_map (fun condition => [condition]) (condition_parallel queries term fits)
    cases term with
    | binary span op first second =>
      have both : ∀ connective, Parallel place known asked
          (do
            let before ← first.conditions left
            let after ← second.conditions left
            return before ++ .connective connective :: after)
          (do
            let before ← (first.mapped id place).conditions right
            let after ← (second.mapped id place).conditions right
            return before ++ .connective connective :: after) := fun connective =>
        .bind (inner first (.head _)) fun _ => parallel_map _ (inner second (.tail _ (.head _)))
      cases op with
      | and => exact both .and
      | or => exact both .or
      | _ => exact single
    | paren span inside => exact parallel_map _ (inner inside (.head _))
    | _ => exact single

theorem column_parallel (queries : QueriesParallel place known asked size left right) (term : Term)
    (fits : term.Fits known size) :
    Parallel place known asked (term.column left) ((term.mapped id place).column right) := by
  induction term using parts_induction with
  | step term ih =>
    have listed := parallel_map Column.ofText (text_parallel queries term fits)
    cases term with
    | aliased span inside label => exact parallel_map _ (ih inside (.head _) (part_fits fits (.head _)))
    | wildcard | ident | qualified => exact .pure _
    | pipe | lambda | named | ordered => exact .refuse _ _
    | _ => exact listed

theorem columns_parallel (queries : QueriesParallel place known asked size left right) (terms : List Term)
    (fits : ∀ term ∈ terms, term.Fits known size) :
    Parallel place known asked (columns left terms) (columns right (mappedAll id place terms)) := by
  induction terms with
  | nil => exact .pure []
  | cons term rest ih =>
    refine .bind (column_parallel queries term (fits term (.head _))) fun _ => ?_
    exact parallel_map _ (ih fun other member => fits other (.tail _ member))

theorem order_item_parallel (queries : QueriesParallel place known asked size left right) (term : Term)
    (fits : term.Fits known size) :
    Parallel place known asked (term.orderItem left) ((term.mapped id place).orderItem right) := by
  have ascending := parallel_map (OrderItem.mk · .asc) (body_parallel queries term fits)
  cases term with
  | ordered span inside direction =>
    have body := body_parallel queries inside (part_fits fits (.head _))
    cases direction <;> exact parallel_map _ body
  | _ => exact ascending

theorem order_items_parallel (queries : QueriesParallel place known asked size left right) (terms : List Term)
    (fits : ∀ term ∈ terms, term.Fits known size) :
    Parallel place known asked (orderItems left terms) (orderItems right (mappedAll id place terms)) := by
  induction terms with
  | nil => exact .pure []
  | cons term rest ih =>
    refine .bind (order_item_parallel queries term (fits term (.head _))) fun _ => ?_
    exact parallel_map _ (ih fun other member => fits other (.tail _ member))

end Term

namespace Stage

variable {place : Span → Span} {known : String → Prop} {asked : Lowering String → Lowering String → Prop}
  {size : Nat} {left right : QueryText}

theorem table_parallel (stage : Stage) :
    Parallel place known asked stage.table (stage.mapped id place).table := by
  have same : ((stage.mapped id place).args.find? fun arg => !arg.isNamed).bind tableOf? =
      (stage.args.find? fun arg => !arg.isNamed).bind tableOf? := by
    simp only [Stage.mapped, Term.mapped_all, List.find?_map, Option.bind_map, Function.comp_def, Term.mapped_named,
      table_of_mapped]
  unfold Stage.table
  rw [same]
  cases (stage.args.find? fun arg => !arg.isNamed).bind tableOf? with
  | none => exact .refuse _ _
  | some table => exact .pure table

-- The only argument is lowered where it stands, on both sides.
theorem argument_parallel {α : Type} (stage : Stage) {lower twin : Term → Lowering α}
    (each : ∀ arg ∈ stage.args, Parallel place known asked (lower arg) (twin (arg.mapped id place))) :
    Parallel place known asked (do lower (← stage.onlyArgument)) (do twin (← (stage.mapped id place).onlyArgument)) := by
  have refused : Parallel place known asked
      (refuse (.notOneArgument stage.name) stage.span >>= lower)
      (refuse (.notOneArgument stage.name) (place stage.span) >>= twin) := by
    have stopped : ∀ (span : Span) (next : Term → Lowering α),
        refuse (.notOneArgument stage.name) span >>= next = refuse (.notOneArgument stage.name) span := fun _ _ => rfl
    rw [stopped, stopped]
    exact .refuse _ _
  unfold onlyArgument Stage.mapped
  cases given : stage.args with
  | nil => exact refused
  | cons first rest =>
    cases rest with
    | nil => exact each first (given ▸ .head _)
    | cons second rest => exact refused

theorem join_parallel (queries : Term.QueriesParallel place known asked size left right) (current : Option String)
    (joinType : String) (stage : Stage) (fits : ∀ arg ∈ stage.args, arg.Fits known size) :
    Parallel place known asked (stage.join left current joinType) ((stage.mapped id place).join right current joinType) := by
  refine .bind (table_parallel stage) fun table => ?_
  dsimp only [Stage.mapped]
  rw [named_mapped]
  cases found : named? "on" stage.args with
  | none =>
    simp only [Option.map_none]
    by_cases cross : joinType = "CROSS"
    · simp only [if_pos cross]
      exact .pure _
    · simp only [if_neg cross]
      exact .bind (.refuse _ _) fun condition => .pure _
  | some term =>
    obtain ⟨arg, member, part⟩ := named_mem "on" stage.args term found
    have body := Term.body_parallel queries term (Term.part_fits (fits arg member) part)
    exact .bind (parallel_map some body) fun condition => .pure _

theorem filter_parallel (queries : Term.QueriesParallel place known asked size left right) (term : Term)
    (fits : term.Fits known size) :
    Parallel place known asked (filterConditions left term) (filterConditions right (term.mapped id place)) := by
  have plain := Term.conditions_parallel queries term fits
  cases term with
  | lambda span params body =>
    exact parallel_map _ (.rows params (Term.conditions_parallel queries body (Term.part_fits fits (.head _))))
  | _ => exact parallel_map _ plain

theorem count_parallel (queries : Term.QueriesParallel place known asked size left right) (term : Term)
    (fits : term.Fits known size) : Parallel place known asked (count left term) (count right (term.mapped id place)) := by
  have plain := Term.text_parallel queries term fits
  cases term with
  | param span name => exact .bind (.declare name "INTEGER") fun _ => plain
  | _ => exact plain

theorem union_parallel (queries : Term.QueriesParallel place known asked size left right) (stage : Stage)
    (fits : ∀ arg ∈ stage.args, arg.Fits known size) (low : Term.heights stage.args < size) :
    Parallel place known asked (stage.unionQuery left) ((stage.mapped id place).unionQuery right) := by
  refine argument_parallel stage fun term member => ?_
  have listed := Term.height_le_heights term stage.args member
  have query : Parallel place known asked (left term []) (right (term.mapped id place) []) := by
    refine .query (queries term [] ?_ ?_)
    · simp only [Pipe.height, Term.heights]
      omega
    · intro part present
      rw [List.mem_singleton.1 present]
      exact fits term member
  cases term with
  | ident | paren | pipe => exact query
  | _ => exact .refuse _ _

theorem step_parallel (queries : Term.QueriesParallel place known asked size left right) (current : Option String)
    (stage : Stage) (fits : ∀ arg ∈ stage.args, arg.Fits known size) (low : Term.heights stage.args < size) :
    Parallel place known asked (stage.step left current) ((stage.mapped id place).step right current) := by
  have columns := Term.columns_parallel queries stage.args fits
  have name : (stage.mapped id place).name = stage.name := rfl
  unfold Stage.step
  rw [name]
  cases Operation.ofName? stage.name with
  | none => exact .refuse _ _
  | some operation =>
    cases operation with
    | innerJoin => exact join_parallel queries current "INNER" stage fits
    | leftJoin => exact join_parallel queries current "LEFT" stage fits
    | crossJoin => exact join_parallel queries current "CROSS" stage fits
    | filter =>
      exact argument_parallel stage fun arg member => parallel_map _ (filter_parallel queries arg (fits arg member))
    | having =>
      exact argument_parallel stage fun arg member => parallel_map _ (Term.body_parallel queries arg (fits arg member))
    | select | selectDistinct | groupBy => exact parallel_map _ columns
    | orderBy => exact parallel_map _ (Term.order_items_parallel queries stage.args fits)
    | limit | offset =>
      exact argument_parallel stage fun arg member => parallel_map _ (count_parallel queries arg (fits arg member))
    | union | unionAll => exact parallel_map _ (union_parallel queries stage fits low)
    | insert => exact parallel_map _ (table_parallel stage)

theorem stage_fits {term : Term} {stage : Stage} (fits : term.Fits known size) (found : ofTerm? term = some stage) :
    (∀ arg ∈ stage.args, arg.Fits known size) ∧ Term.heights stage.args < size := by
  have tall := fits.height
  cases term with
  | call span head args =>
    cases found
    refine ⟨fun arg member => Term.part_fits fits member, ?_⟩
    rw [Term.height] at tall
    exact tall
  | windowed span head args partitionBy orderBy =>
    cases found
    refine ⟨fun arg member => Term.part_fits fits (List.mem_append_left _ (List.mem_append_left _ member)), ?_⟩
    rw [Term.height] at tall
    dsimp only
    omega
  | _ => cases found

theorem steps_parallel (queries : Term.QueriesParallel place known asked size left right) (current : Option String)
    (stages : List Term) (fits : ∀ term ∈ stages, term.Fits known size) :
    Parallel place known asked (steps left current stages) (steps right current (Term.mappedAll id place stages)) := by
  induction stages generalizing current with
  | nil => exact .pure []
  | cons term rest ih =>
    rw [Term.mappedAll, steps, steps, of_mapped]
    cases found : ofTerm? term with
    | none =>
      simp only [Option.map_none, Term.mapped_span]
      exact .refuse _ _
    | some stage =>
      obtain ⟨argsFit, low⟩ := stage_fits (fits term (.head _)) found
      refine .bind (step_parallel queries current stage argsFit low) fun first => ?_
      exact parallel_map _ (ih _ fun other member => fits other (.tail _ member))

theorem through_parallel (queries : Term.QueriesParallel place known asked size left right) (base : Node)
    (stages : List Term) (fits : ∀ term ∈ stages, term.Fits known size) :
    Parallel place known asked (through left base stages) (through right base (Term.mappedAll id place stages)) := by
  have steps := steps_parallel queries base.lastTable? stages fits
  cases stages with
  | nil => exact .pure base
  | cons first rest =>
    rw [Term.mappedAll] at steps ⊢
    exact parallel_map _ steps

end Stage

section

variable {place : Span → Span} {known : String → Prop} {asked : Lowering String → Lowering String → Prop}
  {size : Nat} {left right : QueryText}

theorem Term.source_parallel (queries : QueriesParallel place known asked size left right) (term : Term)
    (fits : term.Fits known size) :
    Parallel place known asked (term.source left) ((term.mapped id place).source right) := by
  induction term using parts_induction with
  | step term ih =>
    cases term with
    | ident span name => exact .lookup name (fits.names span name (.self _))
    | paren span inner => exact ih inner (.head _) (part_fits fits (.head _))
    | pipe span source stages =>
      refine .bind (ih source (.head _) (part_fits fits (.head _))) fun base => ?_
      exact Stage.through_parallel queries base stages fun term member => part_fits fits (.tail _ member)
    | _ => exact .refuse _ _

theorem Pipe.node_with_parallel (queries : Term.QueriesParallel place known asked size left right) (pipe : Pipe)
    (fits : ∀ term ∈ pipe.source :: pipe.stages, term.Fits known size) :
    Parallel place known asked (pipe.nodeWith left) ((pipe.mapped id place).nodeWith right) := by
  refine .bind (Term.source_parallel queries pipe.source (fits _ (.head _))) fun base => ?_
  exact Stage.through_parallel queries base pipe.stages fun term member => fits term (.tail _ member)

end

namespace Lowering

def Failure.moved (place : Span → Span) : Failure → Failure
  | .misuse cause span => .misuse cause (place span)
  | .unbalanced cause => .unbalanced cause

theorem Failure.moved_id (failure : Failure) : failure.moved id = failure := by
  cases failure <;> rfl

-- Scopes that cannot be told apart by known names.
structure Scope.Beside (known : String → Prop) (scope other : Scope) : Prop where
  dialect : other.dialect = scope.dialect
  rows : other.rows = scope.rows
  nodes : ∀ name, known name → other.node name = scope.node name

-- The right lowering does what the left one does, and fails at the place that belongs to the failure of the left one.
def Same {α : Type} (place : Span → Span) (known : String → Prop) (left right : Lowering α) : Prop :=
  ∀ scope other, scope.Beside known other → ∀ parameters,
    right other parameters = (left scope parameters).mapError (Failure.moved place)

variable {place : Span → Span} {known : String → Prop} {asked : Lowering String → Lowering String → Prop}

theorem same_bind {α β : Type} {left right : Lowering α} {next after : α → Lowering β}
    (first : Same place known left right) (others : ∀ value, Same place known (next value) (after value)) :
    Same place known (left >>= next) (right >>= after) := by
  intro scope other beside parameters
  change (right other parameters).bind (fun pair => after pair.1 other pair.2) =
    ((left scope parameters).bind fun pair => next pair.1 scope pair.2).mapError _
  rw [first scope other beside parameters]
  cases left scope parameters with
  | error failure => rfl
  | ok pair => exact others pair.1 scope other beside pair.2

theorem parallel_same (queries : ∀ left right, asked left right → Same place known left right) {α : Type}
    {left right : Lowering α} (parallel : Parallel place known asked left right) : Same place known left right := by
  induction parallel with
  | pure | refuse | declare => exact fun _ _ _ _ => rfl
  | bind first others firstIh othersIh => exact same_bind firstIh othersIh
  | stripped parts next =>
    intro scope other beside parameters
    change Except.ok (next (other.stripRow parts), parameters) = .ok (next (scope.stripRow parts), parameters)
    unfold Scope.stripRow
    rw [beside.rows]
  | lookup name found =>
    intro scope other beside parameters
    change Except.ok (other.node name, parameters) = .ok (scope.node name, parameters)
    rw [beside.nodes name found]
  | rows names inner ih =>
    intro scope other beside parameters
    exact ih { scope with rows := scope.rows ++ names } { other with rows := other.rows ++ names }
      ⟨beside.dialect, congrArg (· ++ names) beside.rows, beside.nodes⟩ parameters
  | query both => exact queries _ _ both

theorem read_bind {α : Type} (next : Scope → Lowering α) (scope : Scope) (parameters : List Parameter) :
    (read >>= next) scope parameters = next scope scope parameters :=
  rfl

theorem write_node_eq (node : Node) (scope : Scope) (parameters : List Parameter) :
    writeNode node scope parameters =
      ((node.write scope.dialect).mapError Failure.unbalanced).map fun sql => (sql, parameters) := by
  rw [writeNode, read_bind]
  cases node.write scope.dialect <;> rfl

theorem write_node_same (node : Node) : Same place known (writeNode node) (writeNode node) := by
  intro scope other beside parameters
  rw [write_node_eq, write_node_eq, beside.dialect]
  cases node.write scope.dialect <;> rfl

end Lowering

namespace Pipe

variable {place : Span → Span} {known : String → Prop}

theorem term_height (pipe : Pipe) (term : Term) (member : term ∈ pipe.source :: pipe.stages) :
    term.height ≤ pipe.height := by
  rcases List.mem_cons.1 member with rfl | member
  · exact Nat.le_max_left _ _
  · exact Nat.le_trans (Term.height_le_heights term pipe.stages member) (Nat.le_max_right _ _)

-- Queries that nest less deeply than `size` do not notice how much deeper they may nest.
theorem queries_same (size depth other : Nat) (same : min size depth = min size other) :
    Term.QueriesParallel place known (Same place known) size (textWithin depth) (textWithin other) := by
  induction size generalizing depth other with
  | zero => exact fun _ _ low => absurd low (Nat.not_lt_zero _)
  | succ size ih =>
    intro source stages low fits
    match depth, other with
    | 0, 0 =>
      intro scope twin beside parameters
      change Except.error (Failure.misuse .tooDeep (source.mapped id place).span) = .error (.misuse .tooDeep (place source.span))
      rw [Term.mapped_span]
    -- both can nest, or neither: a smaller depth shows only where `size` is used up
    | 0, other + 1 => omega
    | depth + 1, 0 => omega
    | depth + 1, other + 1 =>
      have nested := ih depth other (by omega)
      have lower : ∀ term ∈ source :: stages, term.Fits known size := by
        intro term member
        have within := term_height ⟨source, stages⟩ term member
        exact ⟨by omega, (fits term member).names⟩
      exact same_bind (parallel_same (fun _ _ both => both) (node_with_parallel nested ⟨source, stages⟩ lower))
        write_node_same

end Pipe

end PipeSql
