import PipeSql.Proofs.Pipeline.Altered
import PipeSql.Proofs.Pipeline.Coupled
import PipeSql.Proofs.Pipeline.Spacing
import PipeSql.Proofs.Script.Mapped

set_option autoImplicit false

namespace PipeSql

theorem Operator.level_eq (op : Operator) :
    op.level = if op.precedence ≤ 2 then op.precedence else op.precedence + 1 := by
  cases op <;> rfl

namespace Term

open Lowering

variable {likeness : Likeness} {place : Span → Span} {size : Nat} {left right : QueryText}

def QueriesCoupled (likeness : Likeness) (place : Span → Span) (size : Nat) (left right : QueryText) : Prop :=
  ∀ source stages, (Pipe.mk source stages).height < size → (∀ term ∈ source :: stages, term.WellFormed) →
    Coupled likeness likeness.Like (left source stages)
      (right (source.mapped likeness.contents place) (mappedAll likeness.contents place stages))

def TextCoupled (likeness : Likeness) (place : Span → Span) (left right : QueryText) (term : Term) : Prop :=
  Coupled likeness likeness.Like (term.text left) ((term.mapped likeness.contents place).text right)

theorem strip_row_sub (scope : Scope) (parts : List String) : ∀ part ∈ scope.stripRow parts, part ∈ parts := by
  intro part member
  unfold Scope.stripRow at member
  split at member
  · split at member
    · exact .tail _ member
    · exact member
  · exact member

theorem strip_row_like {scope other : Scope} (like : likeness.ScopeLike scope other) (parts : List String) :
    other.stripRow parts = scope.stripRow parts := by
  unfold Scope.stripRow
  rw [like.rows]

theorem binary_text (queryText : QueryText) (span : Span) (op : Operator) (first second : Term) :
    text queryText (.binary span op first second) = (do
      (if op.isComparison then declareCompared first second else pure ())
      let firstText ← first.text queryText
      let secondText ← second.text queryText
      return parenthesized (needsParens op first false) firstText ++ " " ++ op.sql ++ " " ++
        parenthesized (needsParens op second true) secondText) := by
  rw [text]
  cases op.isComparison <;> rfl

-- The grammar puts only such operands next to an operator that need no parentheses.
theorem operands_bare {span : Span} {op : Operator} {first second : Term}
    (formed : (binary span op first second).WellFormed) :
    needsParens op first false = false ∧ needsParens op second true = false := by
  obtain ⟨firstLevel, secondLevel, -, -⟩ := formed
  constructor
  · cases first with
    | binary span inner _ _ =>
      rw [level, Operator.leftLevel, Operator.isComparison, Operator.level_eq, Operator.level_eq] at firstLevel
      simp only [needsParens, Bool.false_and, Bool.or_false, decide_eq_false_iff_not]
      grind
    | _ => rfl
  · cases second with
    | binary span inner _ _ =>
      rw [level, Operator.level_eq, Operator.level_eq] at secondLevel
      have tighter : op.precedence < inner.precedence := by grind
      simp [needsParens]
      omega
    | _ => rfl

theorem formed_binary_text (queryText : QueryText) {span : Span} {op : Operator} {first second : Term}
    (formed : (binary span op first second).WellFormed) :
    text queryText (.binary span op first second) = (do
      (if op.isComparison then declareCompared first second else pure ())
      let firstText ← first.text queryText
      let secondText ← second.text queryText
      return firstText ++ " " ++ op.sql ++ " " ++ secondText) := by
  obtain ⟨firstBare, secondBare⟩ := operands_bare formed
  rw [binary_text, firstBare, secondBare]
  rfl

theorem joined_text (queryText : QueryText) {span : Span} {op : Operator} {first second : Term}
    (formed : (binary span op first second).WellFormed) (joins : op.isComparison = false) :
    text queryText (.binary span op first second) = (do
      let firstText ← first.text queryText
      let secondText ← second.text queryText
      return firstText ++ " " ++ op.sql ++ " " ++ secondText) := by
  rw [formed_binary_text queryText formed, joins]
  rfl

end Term

namespace Chunk

open Lowering

def mapped (contents : String → String) (place : Span → Span) : Chunk → Chunk
  | .token (.str value) => .token (.str (contents value))
  | .query source stages => .query (source.mapped contents place) (Term.mappedAll contents place stages)
  | .refusal misuse span => .refusal misuse (place span)
  | chunk => chunk

end Chunk

namespace Term

open Chunk

theorem mapped_alters (contents : String → String) (place : Span → Span) :
    Alters (mapped contents place) (Chunk.mapped contents place) where
  blank := rfl
  keyword _ := rfl
  symbol _ := rfl
  ident _ := rfl
  call _ _ := rfl
  flat term flat := by
    cases term with
    | ident | qualified | param | lambda | «exists» | pipe | named => rfl
    | wildcard span table => cases table <;> rfl
    | literal span value => cases value <;> rfl
    | _ => cases flat
  deep term deep := by
    have option : ∀ given : Option Term, mappedOption contents place given = given.map (mapped contents place) := by
      intro given
      cases given <;> rfl
    cases term with
    | call | windowed =>
      simp only [mapped, onParts, chunks, mapped_all]
      rfl
    | cases | inList => simp only [mapped, onParts, chunks, mapped_all, mapped_branches, option]
    | binary | isNull | like | paren | aliased | ordered => rfl
    | unary span op operand => cases op <;> rfl
    | _ => cases deep
  binary := mapped_binary contents place
  parens := mapped_parens contents place
  number := mapped_number contents place
  besides number term := by
    cases term with
    | param span name => cases number <;> rfl
    | _ => rfl
  lone term := by cases term <;> rfl

end Term

namespace Chunk

open Lowering

variable {likeness : Likeness} {place : Span → Span} {size : Nat} {left right : QueryText}

theorem coupled_print {write other : Chunk → Lowering String} {chunks : List Chunk}
    (each : ∀ chunk ∈ chunks, Coupled likeness likeness.Like (write chunk) (other chunk)) :
    Coupled likeness likeness.Like (print write chunks) (print other chunks) := by
  induction chunks with
  | nil => exact coupled_pure (likeness.plain _ (by decide))
  | cons chunk rest ih =>
    refine coupled_bind (each chunk (.head _)) fun _ _ firstLike => ?_
    refine coupled_map (ih fun other member => each other (.tail _ member)) fun _ _ othersLike => ?_
    exact likeness.append firstLike othersLike

theorem coupled_chunk (queries : Term.QueriesCoupled likeness place size left right) {term : Term}
    (formed : term.WellFormed) (small : term.height ≤ size) {chunk : Chunk} (within : chunk.Within term) :
    Coupled likeness likeness.Like (chunk.text left) ((chunk.mapped likeness.contents place).text right) := by
  cases chunk with
  | blank => exact coupled_pure (likeness.plain _ (by decide))
  | token lexeme =>
    cases lexeme with
    | keyword word => exact coupled_pure (likeness.plain _ (by cases word <;> decide))
    | symbol mark => cases mark <;> exact coupled_pure (likeness.plain _ (by decide))
    | ident name => exact coupled_pure (likeness.plain name (Token.word_quiet _ (within formed).1))
    | qualified parts =>
      refine coupled_map coupled_read fun scope other like => ?_
      rw [Term.strip_row_like like parts]
      refine likeness.join_with_like _ (by decide) (List.forall₂_same.2 fun part member => ?_)
      exact likeness.plain part (Token.word_quiet _ ((within formed).2 part (Term.strip_row_sub scope parts part member)))
    | tableWildcard table =>
      exact coupled_pure (likeness.append (likeness.plain table (Token.table_wildcard_quiet table (within formed)))
        (likeness.plain _ (by decide)))
    | param name =>
      refine coupled_bind coupled_declare fun _ _ _ => coupled_pure ?_
      exact likeness.append (likeness.plain _ (by decide)) (likeness.plain name (Token.word_quiet _ (within formed)))
    | str value => exact coupled_pure (likeness.literal value)
    | int digits => exact coupled_pure (likeness.plain digits (Token.digits_quiet _ (within formed)))
    | decimal digits => exact coupled_pure (likeness.plain digits (Token.decimal_quiet digits (within formed)))
  | call name empty =>
    refine coupled_pure (likeness.append (likeness.plain name (Token.word_quiet _ (within formed).1)) (likeness.plain _ ?_))
    cases empty <;> decide
  | numeric name => exact coupled_bind coupled_declare fun _ _ _ => coupled_pure (likeness.plain _ (by decide))
  | query source stages =>
    obtain ⟨holder, inner, query, parts⟩ := within
    have holderFormed := Term.within_well_formed holder term inner formed
    refine queries source stages ?_ fun part member => Term.part_well_formed holder part holderFormed (parts ▸ member)
    exact Nat.lt_of_lt_of_le (Term.query_height query parts) (Nat.le_trans (Term.within_height inner) small)
  | refusal misuse span => exact coupled_refuse

end Chunk

namespace Term

open Lowering Chunk

variable {likeness : Likeness} {place : Span → Span} {size : Nat} {left right : QueryText}

theorem coupled_chunks (queries : QueriesCoupled likeness place size left right) {term : Term} (formed : term.WellFormed)
    (small : term.height ≤ size) {chunks : List Chunk} (within : ∀ chunk ∈ chunks, chunk.Within term) :
    Coupled likeness likeness.Like (print (Chunk.text left) chunks)
      (print (Chunk.text right) (chunks.map (Chunk.mapped likeness.contents place))) := by
  rw [print_map]
  exact coupled_print fun chunk member => coupled_chunk queries formed small (within chunk member)

theorem coupled_text (queries : QueriesCoupled likeness place size left right) (term : Term)
    (formed : term.WellFormed) (small : term.height ≤ size) : TextCoupled likeness place left right term := by
  rw [TextCoupled, text_chunks, text_chunks, chunks_altered (mapped_alters _ _)]
  exact coupled_chunks queries formed small (chunks_spaced term).within

theorem coupled_body (queries : QueriesCoupled likeness place size left right) (term : Term)
    (formed : term.WellFormed) (small : term.height ≤ size) :
    Coupled likeness likeness.Like (term.bodyText left) ((term.mapped likeness.contents place).bodyText right) := by
  have plain := coupled_text queries term formed small
  cases term with
  | lambda span params body =>
    have lower := part_height (.lambda span params body) body (.head _)
    exact coupled_with_rows params (coupled_text queries body formed.2.2.2 (by omega))
  | _ => exact plain

theorem named_column_like (parts : List String) (each : ∀ part ∈ parts, likeness.Like part part) :
    likeness.ColumnLike (namedColumn parts) (namedColumn parts) := by
  unfold namedColumn
  have reversed : ∀ part ∈ parts.reverse, likeness.Like part part := fun part member =>
    each part (List.mem_reverse.1 member)
  match parts.reverse, reversed with
  | [], _ => exact .wildcard none nofun
  | [name], reversed => exact .named name none none (reversed name (.head _)) nofun nofun
  | name :: table :: rest, reversed =>
    refine .named name _ none (reversed name (.head _)) ?_ nofun
    rintro _ ⟨⟩
    refine likeness.join_with_like _ (by decide) (List.forall₂_same.2 fun part member => ?_)
    exact reversed part (.tail _ (List.mem_reverse.1 member))

theorem coupled_operand (queries : QueriesCoupled likeness place size left right) (term : Term)
    (formed : term.WellFormed) (small : term.height ≤ size) :
    Coupled likeness likeness.ColumnLike (term.operandColumn left)
      ((term.mapped likeness.contents place).operandColumn right) := by
  have listed := coupled_map (coupled_text queries term formed small) fun text other like =>
    Likeness.ColumnLike.expression text other none like nofun
  cases term with
  | ident span name =>
    exact coupled_pure (.named name none none (likeness.plain name (Token.word_quiet _ formed.1)) nofun nofun)
  | qualified span parts =>
    refine coupled_map coupled_read fun scope other like => ?_
    rw [strip_row_like like parts]
    refine named_column_like _ fun part member => likeness.plain part (Token.word_quiet _ ?_)
    exact formed.2 part (strip_row_sub scope parts part member)
  | _ => exact listed

theorem coupled_condition (queries : QueriesCoupled likeness place size left right) (term : Term)
    (formed : term.WellFormed) (small : term.height ≤ size) :
    Coupled likeness likeness.ConditionLike (term.condition left)
      ((term.mapped likeness.contents place).condition right) := by
  have phrase := coupled_map (coupled_text queries term formed small) fun text other like =>
    Likeness.ConditionLike.expression text other like
  have operand : ∀ part ∈ term.parts, Coupled likeness likeness.ColumnLike (part.operandColumn left)
      ((part.mapped likeness.contents place).operandColumn right) := by
    intro part member
    have lower := part_height term part member
    exact coupled_operand queries part (part_well_formed term part formed member) (by omega)
  have inner : ∀ part ∈ term.parts, TextCoupled likeness place left right part := by
    intro part member
    have lower := part_height term part member
    exact coupled_text queries part (part_well_formed term part formed member) (by omega)
  cases term with
  | binary span op first second =>
    rw [mapped, condition, condition]
    cases comparison : op.isComparison with
    | false => exact phrase
    | true =>
      have declared : Coupled likeness (fun _ _ => True) (declareCompared first second)
          (declareCompared (first.mapped likeness.contents place) (second.mapped likeness.contents place)) := by
        have linked := compared_linked comparison (chunks_spaced (.binary span op first second))
        rw [declare_compared_chunks left, declare_compared_chunks right, compared_altered (mapped_alters _ _)]
        exact coupled_map (coupled_chunks queries formed small linked.within) fun _ _ _ => trivial
      refine coupled_bind declared fun _ _ _ => ?_
      refine coupled_bind (operand first (.head _)) fun _ _ columnLike => ?_
      refine coupled_bind (inner second (.tail _ (.head _))) fun _ _ textLike => ?_
      exact coupled_pure (.comparison _ _ (comparisonOf op) _ _ columnLike textLike)
  | isNull span tested negated =>
    refine coupled_map (operand tested (.head _)) fun _ _ columnLike => ?_
    exact .comparison _ _ _ _ _ columnLike (likeness.plain _ (by decide))
  | inList span tested items negated =>
    cases negated with
    | true => exact phrase
    | false =>
      refine coupled_bind (operand tested (.head _)) fun _ _ columnLike => ?_
      have alters := mapped_alters likeness.contents place
      rw [list_text_chunks, list_text_chunks, mapped_all,
        entries_altered alters items fun item _ => chunks_altered alters item]
      have linked := entries_linked (chunks_spaced (.inList span tested items false))
      refine coupled_map (coupled_chunks queries formed small linked.within) fun _ _ textLike => ?_
      exact .comparison _ _ .in _ _ columnLike textLike
  | like span tested pattern negated =>
    cases negated with
    | true => exact phrase
    | false =>
      refine coupled_bind (operand tested (.head _)) fun _ _ columnLike => ?_
      exact coupled_map (inner pattern (.tail _ (.head _))) fun _ _ textLike => .comparison _ _ .like _ _ columnLike textLike
  | _ => exact phrase

theorem coupled_conditions (queries : QueriesCoupled likeness place size left right) (term : Term)
    (formed : term.WellFormed) (small : term.height ≤ size) :
    Coupled likeness (List.Forall₂ likeness.ConditionLike) (term.conditions left)
      ((term.mapped likeness.contents place).conditions right) := by
  induction term using parts_induction with
  | step term ih =>
    have inner : ∀ part ∈ term.parts, Coupled likeness (List.Forall₂ likeness.ConditionLike) (part.conditions left)
        ((part.mapped likeness.contents place).conditions right) := by
      intro part member
      have lower := part_height term part member
      exact ih part member (part_well_formed term part formed member) (by omega)
    have single := coupled_map (coupled_condition queries term formed small) fun _ _ like => List.Forall₂.cons like .nil
    cases term with
    | binary span op first second =>
      have both : ∀ connective, Coupled likeness (List.Forall₂ likeness.ConditionLike)
          (do
            let before ← first.conditions left
            let after ← second.conditions left
            return before ++ .connective connective :: after)
          (do
            let before ← (first.mapped likeness.contents place).conditions right
            let after ← (second.mapped likeness.contents place).conditions right
            return before ++ .connective connective :: after) := by
        intro connective
        refine coupled_bind (inner first (.head _)) fun _ _ beforeLike => ?_
        refine coupled_map (inner second (.tail _ (.head _))) fun _ _ afterLike => ?_
        exact List.rel_append beforeLike (.cons (.connective connective) afterLike)
      cases op with
      | and => exact both .and
      | or => exact both .or
      | _ => exact single
    | paren span inside =>
      refine coupled_map (inner inside (.head _)) fun _ _ like => ?_
      exact .cons .opening (List.rel_append like (.cons .closing .nil))
    | _ => exact single

theorem with_alias_like {column other : Column} (label : String) (like : likeness.ColumnLike column other)
    (labelLike : likeness.Like label label) : likeness.ColumnLike (column.withAlias label) (other.withAlias label) := by
  have given : ∀ name, some label = some name → likeness.Like name name := by
    rintro _ ⟨⟩
    exact labelLike
  cases like with
  | named name table label nameLike tableLike labelLike => exact .named name table _ nameLike tableLike given
  | expression text other label like labelLike => exact .expression text other _ like given
  | wildcard table tableLike => exact .wildcard table tableLike

theorem coupled_column (queries : QueriesCoupled likeness place size left right) (term : Term)
    (formed : term.WellFormed) (small : term.height ≤ size) :
    Coupled likeness likeness.ColumnLike (term.column left) ((term.mapped likeness.contents place).column right) := by
  induction term using parts_induction with
  | step term ih =>
    have listed := coupled_map (coupled_text queries term formed small) fun text other like =>
      Likeness.ColumnLike.expression text other none like nofun
    cases term with
    | aliased span inside label =>
      have lower := part_height (.aliased span inside label) inside (.head _)
      refine coupled_map (ih inside (.head _) formed.2.1 (by omega)) fun _ _ like => ?_
      exact with_alias_like label like (likeness.plain label (Token.word_quiet _ formed.2.2.1))
    | wildcard span table =>
      refine coupled_pure (.wildcard table ?_)
      rintro given rfl
      exact likeness.plain given (Token.table_wildcard_quiet given formed)
    | ident span name =>
      exact coupled_pure (.named name none none (likeness.plain name (Token.word_quiet _ formed.1)) nofun nofun)
    | qualified span parts =>
      exact coupled_pure (named_column_like parts fun part member =>
        likeness.plain part (Token.word_quiet _ (formed.2 part member)))
    | pipe | lambda | named | ordered => exact coupled_refuse
    | _ => exact listed

theorem coupled_columns (queries : QueriesCoupled likeness place size left right) (terms : List Term)
    (formed : ∀ term ∈ terms, term.WellFormed) (small : heights terms ≤ size) :
    Coupled likeness (List.Forall₂ likeness.ColumnLike) (columns left terms)
      (columns right (mappedAll likeness.contents place terms)) := by
  induction terms with
  | nil => exact coupled_pure .nil
  | cons term rest ih =>
    rw [heights] at small
    refine coupled_bind (coupled_column queries term (formed term (.head _)) (by omega)) fun _ _ firstLike => ?_
    refine coupled_map (ih (fun other member => formed other (.tail _ member)) (by omega)) fun _ _ othersLike => ?_
    exact .cons firstLike othersLike

theorem coupled_order_item (queries : QueriesCoupled likeness place size left right) (term : Term)
    (formed : term.WellFormed) (small : term.height ≤ size) :
    Coupled likeness likeness.OrderLike (term.orderItem left) ((term.mapped likeness.contents place).orderItem right) := by
  have ascending := coupled_map (coupled_body queries term formed small) fun text other like =>
    (⟨like, rfl⟩ : likeness.OrderLike ⟨text, .asc⟩ ⟨other, .asc⟩)
  cases term with
  | ordered span inside direction =>
    have lower := part_height (.ordered span inside direction) inside (.head _)
    have body := coupled_body queries inside formed.2 (by omega)
    cases direction with
    | ascending => exact coupled_map body fun _ _ like => ⟨like, rfl⟩
    | descending => exact coupled_map body fun _ _ like => ⟨like, rfl⟩
  | _ => exact ascending

theorem coupled_order_items (queries : QueriesCoupled likeness place size left right) (terms : List Term)
    (formed : ∀ term ∈ terms, term.WellFormed) (small : heights terms ≤ size) :
    Coupled likeness (List.Forall₂ likeness.OrderLike) (orderItems left terms)
      (orderItems right (mappedAll likeness.contents place terms)) := by
  induction terms with
  | nil => exact coupled_pure .nil
  | cons term rest ih =>
    rw [heights] at small
    refine coupled_bind (coupled_order_item queries term (formed term (.head _)) (by omega)) fun _ _ firstLike => ?_
    refine coupled_map (ih (fun other member => formed other (.tail _ member)) (by omega)) fun _ _ othersLike => ?_
    exact .cons firstLike othersLike

end Term

end PipeSql
