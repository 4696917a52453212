import PipeSql.Proofs.Formula.Meaning
import PipeSql.Proofs.Statement.Tokens

set_option autoImplicit false

namespace PipeSql

open WhereText

-- The formula by which an operation restricts the rows.
def QueryOp.restriction? : QueryOp → Option Formula
  | .filter predicate => some predicate.body
  | _ => none

namespace Query

def restrictions (query : Query) : List Formula :=
  query.ops.filterMap QueryOp.restriction?

-- The text of a query around what stands behind WHERE.
def layout (query : Query) (dialect : Dialect) (guess : Bool) (statement : Statement) (restriction : Option String) :
    String :=
  let clauses : List (Option String) :=
    [some (Clause.select dialect statement.distinct statement.limit statement.offset
        (Column.sqls dialect guess statement.columns)),
      some ("FROM " ++ query.table),
      restriction.map ("WHERE " ++ ·),
      Clause.groupBy (Column.sqls dialect guess statement.groupBy),
      Clause.orderBy dialect statement.orderBy statement.offset,
      Clause.limit dialect statement.limit statement.offset]
  Text.joinWith " " (clauses.filterMap id)

end Query

-- Both the text and its meaning are known, whatever the dialect.
structure Condition.Means (conditions : List (Condition Column)) (text : String) (formulas : List Formula) : Prop where
  joins : ∀ dialect : Dialect, Clause.Joins (Condition.sqls dialect conditions) text
  factors : ∀ valuation, Factors valuation text (formulas.all (Formula.holds valuation))

theorem Formula.conditions_mean {formula : Formula} {conditions : List (Condition Column)}
    (propositional : formula.isPropositional = true) (done : formula.conditions = .ok conditions) :
    ∃ text, Condition.Means conditions text [formula] := by
  obtain ⟨sql, written, rfl⟩ := Except.map_ok done
  have stated := predicate_stated formula propositional written
  obtain ⟨opening, closing⟩ := alternatives_no_parenthesis (stated.alternatives fun _ => true)
  refine ⟨formula.conjunct sql, ?_, ?_⟩
  · intro dialect
    have single : Clause.Joins [dialect.respell sql] sql := by
      rw [Dialect.spells_respell (stated.spelled dialect)]
      exact Clause.joins_single closing opening
    rw [conjunct_eq]
    by_cases loose : formula.isLooseOr = true
    · rw [if_pos loose, if_pos loose]
      exact Clause.joins_parenthesized single
    · rw [if_neg loose, if_neg loose]
      exact single
  · intro valuation
    have factors := (stated_conjunct stated).2 valuation
    simpa using factors

theorem Condition.conjoin_means {before after : List (Condition Column)} {beforeText afterText : String}
    {formulas others : List Formula} (first : Means before beforeText formulas) (second : Means after afterText others) :
    Means (before ++ .and :: after) (beforeText ++ " AND " ++ afterText) (formulas ++ others) where
  joins dialect := by
    have keyword : Clause.Joins ["AND"] "AND" := Clause.joins_single (by decide) (by decide)
    have joined := Clause.joins_spaced (Clause.joins_spaced (first.joins dialect) keyword) (second.joins dialect)
    rw [sqls_append, Formula.spaced_word "AND" " AND " _ _ rfl]
    rw [List.append_assoc] at joined
    exact joined
  factors valuation := by
    rw [List.all_append]
    exact factors_and (first.factors valuation) (second.factors valuation)

-- The statement of a query after some of its operations.
structure Statement.Restricted (table : String) (formulas : List Formula) (statement : Statement) : Prop where
  tables : statement.tables = [.named table]
  having : statement.having = none
  unions : statement.unions = []
  insert : statement.insert = none
  conditions : (formulas = [] ∧ statement.conditions = []) ∨ ∃ text, Condition.Means statement.conditions text formulas

theorem Statement.restrict_restricted {table : String} {formulas : List Formula} {formula : Formula} {statement : Statement}
    {conditions : List (Condition Column)} (restricted : Restricted table formulas statement)
    (propositional : formula.isPropositional = true) (done : formula.conditions = .ok conditions) :
    Restricted table (formulas ++ [formula]) (statement.restrict conditions) := by
  obtain ⟨text, means⟩ := Formula.conditions_mean propositional done
  refine { restricted with conditions := .inr ?_ }
  rcases restricted.conditions with ⟨rfl, none⟩ | ⟨before, known⟩
  · refine ⟨text, ?_⟩
    rw [restrict, none]
    exact means
  · refine ⟨before ++ " AND " ++ text, ?_⟩
    have filled : statement.conditions.isEmpty = false := by
      cases conditions : statement.conditions with
      | nil =>
        rw [conditions] at known
        exact absurd rfl (known.joins .sqlite).filled
      | cons first rest => rfl
    rw [restrict, filled]
    exact Condition.conjoin_means known means

theorem QueryOp.apply_restricted {table : String} {formulas : List Formula} {statement result : Statement}
    (restricted : statement.Restricted table formulas) (op : QueryOp)
    (propositional : ∀ formula, op.restriction? = some formula → formula.isPropositional = true)
    (done : op.apply statement = .ok result) : result.Restricted table (formulas ++ op.restriction?.toList) := by
  cases op with
  | filter predicate =>
    obtain ⟨conditions, lowered, rfl⟩ := Except.map_ok done
    exact Statement.restrict_restricted restricted (propositional _ rfl) lowered
  | select columns | groupBy columns =>
    obtain ⟨written, _, rfl⟩ := Except.map_ok done
    change Statement.Restricted table (formulas ++ []) _
    rw [List.append_nil]
    exact { restricted with }
  | orderBy key direction | thenBy key direction =>
    obtain ⟨item, _, rfl⟩ := Except.map_ok done
    change Statement.Restricted table (formulas ++ []) _
    rw [List.append_nil]
    exact { restricted with }
  | take count | skip count | distinct =>
    cases done
    change Statement.Restricted table (formulas ++ []) _
    rw [List.append_nil]
    exact { restricted with }

theorem QueryOp.apply_all_restricted {table : String} (ops : List QueryOp) {formulas : List Formula}
    {statement result : Statement} (restricted : statement.Restricted table formulas)
    (propositional : ∀ formula ∈ ops.filterMap restriction?, formula.isPropositional = true)
    (done : ops.foldlM QueryOp.apply statement = .ok result) :
    result.Restricted table (formulas ++ ops.filterMap restriction?) := by
  induction ops generalizing statement formulas with
  | nil =>
    cases done
    rw [List.filterMap_nil, List.append_nil]
    exact restricted
  | cons op rest ih =>
    rw [List.foldlM_cons] at done
    obtain ⟨next, applied, done⟩ := Except.bind_ok done
    have split : (op :: rest).filterMap restriction? = op.restriction?.toList ++ rest.filterMap restriction? := by
      cases known : op.restriction? <;> simp [known]
    rw [split] at propositional ⊢
    have stepped := apply_restricted restricted op
      (fun formula known => propositional formula (List.mem_append_left _ (by simp [known]))) applied
    have continued := ih stepped (fun formula member => propositional formula (List.mem_append_right _ member)) done
    rwa [List.append_assoc] at continued

namespace Query

variable {query : Query} {statement : Statement}

theorem statement_restricted (propositional : ∀ formula ∈ query.restrictions, formula.isPropositional = true)
    (built : query.statement = .ok statement) : statement.Restricted query.table query.restrictions := by
  have based : (Statement.empty.withBase (.named query.table)).Restricted query.table [] :=
    ⟨rfl, rfl, rfl, rfl, .inl ⟨rfl, rfl⟩⟩
  exact QueryOp.apply_all_restricted query.ops based propositional built

theorem sql_layout (restricted : statement.Restricted query.table query.restrictions) {restriction : Option String}
    {dialect : Dialect}
    (clause : Clause.whereTokens (Condition.sqls dialect statement.conditions) = restriction.map ("WHERE " ++ ·)) (guess : Bool) :
    Statement.sql dialect guess statement = query.layout dialect guess statement restriction := by
  obtain ⟨tables, having, unions, insert, _⟩ := restricted
  cases statement with
  | mk columns knownTables parameters joins conditions groupBy orderBy knownHaving limit offset distinct knownUnions knownInsert =>
    cases tables
    cases having
    cases unions
    cases insert
    have source : Clause.fromTables dialect joins [.named query.table] = "FROM " ++ query.table := by
      simp [Clause.fromTables, Text.joinWith, Table.sql, Table.named]
    rw [Statement.sql, Select.assemble, layout, clause, source]
    -- neither HAVING nor a union stands between the clauses
    cases restriction <;> cases Clause.groupBy (Column.sqls dialect guess groupBy) <;> rfl

theorem clause_means (restricted : statement.Restricted query.table query.restrictions) :
    ∃ restriction : Option String,
      (∀ dialect, Clause.whereTokens (Condition.sqls dialect statement.conditions) = restriction.map ("WHERE " ++ ·)) ∧
      ∀ valuation, kept? valuation restriction = some (query.restrictions.all (Formula.holds valuation)) := by
  rcases restricted.conditions with ⟨noFormulas, noConditions⟩ | ⟨text, means⟩
  · refine ⟨none, ?_, ?_⟩
    · intro dialect
      rw [noConditions]
      rfl
    · intro valuation
      rw [noFormulas]
      rfl
  · refine ⟨some text, ?_, ?_⟩
    · intro dialect
      have joins := means.joins dialect
      rw [Clause.whereTokens, if_neg (by simpa using joins.filled), joins.joined]
      rfl
    · intro valuation
      exact truth_alternatives (alternatives_single (means.factors valuation))

theorem where_text_means_restrictions (propositional : ∀ formula ∈ query.restrictions, formula.isPropositional = true)
    (built : query.statement = .ok statement) :
    ∃ restriction : Option String,
      (∀ dialect guess, statement.write dialect guess = .ok (query.layout dialect guess statement restriction)) ∧
      ∀ valuation, kept? valuation restriction = some (query.restrictions.all (Formula.holds valuation)) := by
  have restricted := statement_restricted propositional built
  obtain ⟨restriction, clause, means⟩ := clause_means restricted
  refine ⟨restriction, ?_, means⟩
  intro dialect guess
  rw [Statement.grouped_written (statement_grouped built), sql_layout restricted (clause dialect)]

-- A folded side, a literal with a quote and a parenthesis, and a column named like a keyword.
theorem nested_restrictions_keep_meaning :
    let row := Formula.parameter "x"
    let chosen := Formula.binary .or (.member row "active") (.test .contains (.member row "name") (.constant (.text "it's)")))
    let first := Formula.binary .or (.constant (.bool false))
      (.binary .and chosen (.not (.binary .equal (.constant .null) (.member row "deleted"))))
    let second := Formula.binary .or (.against .greaterOrEqual (.member row "age") (.int 18)) (.member row "NOT")
    let query : Query := ⟨"users", [.filter ⟨"x", first⟩, .take 5, .filter ⟨"x", second⟩]⟩
    ∃ statement restriction, query.statement = .ok statement ∧
      (∀ dialect guess, statement.write dialect guess = .ok (query.layout dialect guess statement restriction)) ∧
      ∀ valuation, kept? valuation restriction =
        some ((valuation "active = 1" || valuation "name LIKE '%it''s)%'") && !valuation "deleted IS NULL" &&
          (valuation "age >= 18" || valuation "NOT = 1")) := by
  intro row chosen first second query
  obtain ⟨statement, built⟩ : ∃ statement, query.statement = .ok statement := ⟨_, rfl⟩
  have propositional : ∀ formula ∈ query.restrictions, formula.isPropositional = true :=
    List.all_eq_true.1 (by decide : query.restrictions.all Formula.isPropositional = true)
  obtain ⟨restriction, written, means⟩ := where_text_means_restrictions propositional built
  refine ⟨statement, restriction, built, written, ?_⟩
  intro valuation
  rw [means]
  have whole : query.restrictions.all (Formula.holds valuation) =
      ((false || ((valuation "active = 1" || valuation "name LIKE '%it''s)%'") && !valuation "deleted IS NULL")) &&
        ((valuation "age >= 18" || valuation "NOT = 1") && true)) := rfl
  rw [whole, Bool.false_or, Bool.and_true]

end Query

end PipeSql
