import PipeSql.Proofs.Dialect.Clean
import PipeSql.Proofs.Statement.Likeness

set_option autoImplicit false

namespace PipeSql

open Text

namespace Text

def Permits (allowed : Allowance) (text : String) : Prop :=
  Clean allowed text.toList

-- The first character ends every name.
def stops : List Char → Bool
  | [] => false
  | c :: _ => c == ' ' || c == ')' || c == ','

theorem stops_halts {first : List Char} (stop : stops first = true) (rest : List Char) : Halts (first ++ rest) := by
  cases first with
  | nil => cases stop
  | cons c others =>
    simp only [stops, Bool.or_eq_true, beq_iff_eq, or_assoc] at stop
    exact halts_cons _ stop

variable {allowed : Allowance}

theorem permits_plain {text : String} (lead : leads text.toList = true) : Permits allowed text :=
  leads_self lead

theorem permits_behind {first second : String} (lead : leads first.toList = true) (right : Permits allowed second) :
    Permits allowed (first ++ second) := by
  rw [Permits, String.toList_append]
  exact leads_clean lead right

theorem permits_before {first second : String} (left : Permits allowed first) (halts : Halts second.toList)
    (right : Permits allowed second) : Permits allowed (first ++ second) := by
  rw [Permits, String.toList_append]
  exact clean_append left halts right

theorem permits_closed {first second : String} (left : Permits allowed first) (stop : stops second.toList = true)
    (lead : leads second.toList = true) : Permits allowed (first ++ second) := by
  have halts := stops_halts stop []
  rw [List.append_nil] at halts
  exact permits_before left halts (permits_plain lead)

theorem permits_joined {first between second : String} (left : Permits allowed first)
    (stop : stops between.toList = true) (lead : leads between.toList = true) (right : Permits allowed second) :
    Permits allowed (first ++ between ++ second) := by
  rw [String.append_assoc]
  refine permits_before left ?_ (permits_behind lead right)
  rw [String.toList_append]
  exact stops_halts stop _

theorem permits_enclosed {opening text closing : String} (begun : leads opening.toList = true)
    (inner : Permits allowed text) (stop : stops closing.toList = true) (ended : leads closing.toList = true) :
    Permits allowed (opening ++ text ++ closing) :=
  permits_closed (permits_behind begun inner) stop ended

theorem permits_join_with {separator : String} (stop : stops separator.toList = true)
    (lead : leads separator.toList = true) {texts : List String} (each : ∀ text ∈ texts, Permits allowed text) :
    Permits allowed (joinWith separator texts) := by
  induction texts with
  | nil => exact .nil
  | cons first rest ih =>
    have others := ih fun text member => each text (.tail _ member)
    cases rest with
    | nil => exact each first (.head _)
    | cons second rest => exact permits_joined (each first (.head _)) stop lead others

theorem leads_append_text {first second : String} (left : leads first.toList = true) (right : leads second.toList = true) :
    leads (first ++ second).toList = true := by
  rw [String.toList_append]
  exact leads_append left right

theorem leads_join_with {separator : String} (lead : leads separator.toList = true) {texts : List String}
    (each : ∀ text ∈ texts, leads text.toList = true) : leads (joinWith separator texts).toList = true := by
  induction texts with
  | nil => rfl
  | cons first rest ih =>
    have others := ih fun text member => each text (.tail _ member)
    cases rest with
    | nil => exact each first (.head _)
    | cons second rest => exact leads_append_text (leads_append_text (each first (.head _)) lead) others

end Text

variable {allowed : Allowance}

def Column.Permitted (allowed : Allowance) : Column → Prop
  | .named name table label => leads name.toList = true ∧ (∀ given, table = some given → leads given.toList = true) ∧
      ∀ given, label = some given → leads given.toList = true
  | .expression text label => Permits allowed text ∧ ∀ given, label = some given → leads given.toList = true
  | .wildcard table => ∀ given, table = some given → leads given.toList = true
  | .subQuery _ _ => False

def Condition.Permitted (allowed : Allowance) : Condition Column → Prop
  | .comparison left _ right => left.Permitted allowed ∧ Permits allowed right
  | .expression text => Permits allowed text
  | .connective _ | .opening | .closing => True

structure Join.Permitted (allowed : Allowance) (join : Join) : Prop where
  condition : ∀ text, join.condition = some text → Permits allowed text
  keywords : leads (Join.keywords join.joinType).toList = true

structure Statement.Permitted (allowed : Allowance) (statement : Statement) : Prop where
  columns : ∀ column ∈ statement.columns, column.Permitted allowed
  tables : ∀ table ∈ statement.tables, leads table.sql.toList = true
  joins : ∀ join ∈ statement.joins, join.Permitted allowed
  conditions : ∀ condition ∈ statement.conditions, condition.Permitted allowed
  groupBy : ∀ column ∈ statement.groupBy, column.Permitted allowed
  orderBy : ∀ item ∈ statement.orderBy, Permits allowed item.column
  having : ∀ text, statement.having = some text → Permits allowed text
  limit : ∀ text, statement.limit = some text → Permits allowed text
  offset : ∀ text, statement.offset = some text → Permits allowed text
  unions : ∀ union ∈ statement.unions, Permits allowed union.query
  insert : ∀ target, statement.insert = some target → leads target.table.toList = true ∧ target.columns = []

namespace Column

theorem renamed_permitted {text : String} {label : Option String} (inner : Permits allowed text)
    (labelled : ∀ given, label = some given → leads given.toList = true) : Permits allowed (renamed text label) := by
  cases label with
  | none => exact inner
  | some label => exact permits_joined inner (by decide) (by decide) (permits_plain (labelled label rfl))

theorem qualified_leads {name : String} {table : Option String} (named : leads name.toList = true)
    (within : ∀ given, table = some given → leads given.toList = true) : leads (qualifiedName table name).toList = true := by
  cases table with
  | none => exact named
  | some table => exact leads_append_text (leads_append_text (within table rfl) (by decide)) named

theorem sql_permitted (dialect : Dialect) (guess : Bool) {column : Column} (permitted : column.Permitted allowed) :
    Permits allowed (column.sql dialect guess) := by
  cases column with
  | named name table label =>
    rw [Column.sql]
    exact renamed_permitted (permits_plain (qualified_leads permitted.1 permitted.2.1)) permitted.2.2
  | expression text label =>
    rw [Column.sql]
    exact renamed_permitted (dialect.respell_clean permitted.1) permitted.2
  | wildcard table =>
    cases table with
    | none =>
      rw [Column.sql]
      exact permits_plain (by decide)
    | some table =>
      rw [Column.sql]
      exact permits_behind (permitted table rfl) (permits_plain (by decide))
  | subQuery => exact absurd permitted id

theorem sqls_permitted (dialect : Dialect) (guess : Bool) {columns : List Column}
    (each : ∀ column ∈ columns, column.Permitted allowed) :
    ∀ text ∈ Column.sqls dialect guess columns, Permits allowed text := by
  induction columns with
  | nil => simp [Column.sqls]
  | cons column rest ih =>
    rw [Column.sqls]
    rintro text (_ | ⟨_, member⟩)
    · exact sql_permitted dialect guess (each column (.head _))
    · exact ih (fun other present => each other (.tail _ present)) text member

theorem operand_permitted (dialect : Dialect) {column : Column} (permitted : column.Permitted allowed) :
    Permits allowed (column.operand dialect (column.sql dialect true)) := by
  cases column with
  | named name table label => exact permits_plain (qualified_leads permitted.1 permitted.2.1)
  | expression text label => exact dialect.respell_clean permitted.1
  | wildcard table => exact sql_permitted dialect true permitted
  | subQuery => exact absurd permitted id

theorem output_leads {column : Column} (permitted : column.Permitted allowed) {name : String}
    (given : column.outputName? = some name) : leads name.toList = true := by
  cases column with
  | named first table label =>
    cases label with
    | none =>
      cases given
      exact permitted.1
    | some label =>
      cases given
      exact permitted.2.2 label rfl
  | expression text label => exact permitted.2 name given
  | wildcard => cases given
  | subQuery => exact absurd permitted id

theorem outputs_lead {columns : List Column} (each : ∀ column ∈ columns, column.Permitted allowed) {names : List String}
    (projected : (columns.map outputName?).mapM id = some names) : ∀ name ∈ names, leads name.toList = true := by
  induction columns generalizing names with
  | nil =>
    cases projected
    simp
  | cons column rest ih =>
    simp only [List.map_cons, List.mapM_cons, Option.bind_eq_bind, id, Option.bind_eq_some_iff] at projected
    obtain ⟨output, given, outputs, followed, combined⟩ := projected
    cases combined
    rintro name (_ | ⟨_, member⟩)
    · exact output_leads (each column (.head _)) given
    · exact ih (fun other present => each other (.tail _ present)) followed name member

end Column

namespace Comparison

theorem sql_leads (operator : Comparison) : leads operator.sql.toList = true := by
  cases operator <;> decide

theorem phrase_permitted (dialect : Dialect) (operator : Comparison) {left right : String}
    (begun : Permits allowed left) (ended : Permits allowed right) :
    Permits allowed (operator.phrase dialect left right) := by
  have head := permits_joined begun (by decide : stops " ".toList = true) (by decide) (permits_plain (sql_leads operator))
  unfold phrase
  split
  · exact head
  · exact permits_joined head (by decide) (by decide) (dialect.respell_clean ended)

end Comparison

namespace Condition

theorem sqls_permitted (dialect : Dialect) {conditions : List (Condition Column)}
    (each : ∀ condition ∈ conditions, condition.Permitted allowed) :
    ∀ text ∈ Condition.sqls dialect conditions, Permits allowed text := by
  induction conditions with
  | nil => simp [Condition.sqls]
  | cons condition rest ih =>
    have others := ih fun other present => each other (.tail _ present)
    have first := each condition (.head _)
    cases condition with
    | comparison left operator right =>
      rw [Condition.sqls]
      rintro text (_ | ⟨_, member⟩)
      · exact operator.phrase_permitted dialect (Column.operand_permitted dialect first.1) first.2
      · exact others text member
    | connective connective =>
      rw [Condition.sqls]
      rintro text (_ | ⟨_, member⟩)
      · exact permits_plain (by cases connective <;> decide)
      · exact others text member
    | opening | closing =>
      rw [Condition.sqls]
      rintro text (_ | ⟨_, member⟩)
      · exact permits_plain (by decide)
      · exact others text member
    | expression text =>
      rw [Condition.sqls]
      rintro text (_ | ⟨_, member⟩)
      · exact dialect.respell_clean first
      · exact others text member

end Condition

namespace Clause

theorem join_tokens_start (first : String) (rest : List String) :
    ∃ others, joinTokens (first :: rest) = first ++ others := by
  cases rest with
  | nil => exact ⟨"", by simp [joinTokens]⟩
  | cons second rest => exact ⟨_, String.append_assoc ..⟩

theorem join_tokens_permitted {tokens : List String} (each : ∀ token ∈ tokens, Permits allowed token) :
    Permits allowed (joinTokens tokens) := by
  induction tokens with
  | nil => exact .nil
  | cons first rest ih =>
    have others := ih fun token member => each token (.tail _ member)
    cases rest with
    | nil => exact each first (.head _)
    | cons second rest =>
      rw [joinTokens]
      by_cases opening : first = "("
      · rw [opening, if_neg (by simp)]
        exact permits_behind (by decide) others
      · by_cases closing : second = ")"
        · -- the closing parenthesis itself ends what stands before it
          subst closing
          obtain ⟨behind, same⟩ := join_tokens_start ")" rest
          have halts : Halts (joinTokens (")" :: rest)).toList := by
            rw [same, String.toList_append]
            exact stops_halts (by decide) _
          simpa using permits_before (each first (.head _)) halts others
        · have apart : (first != "(" && second != ")") = true := by simp [opening, closing]
          rw [if_pos apart]
          exact permits_joined (each first (.head _)) (by decide) (by decide) others

theorem joined_permitted (dialect : Dialect) {joins : List Join} (each : ∀ join ∈ joins, join.Permitted allowed)
    {table : Table} (named : leads table.sql.toList = true) :
    stops (joined dialect joins table).toList = true ∧ Permits allowed (joined dialect joins table) := by
  have clause : ∀ keywords condition : String, leads keywords.toList = true →
      Halts condition.toList → Permits allowed condition →
      stops (" " ++ keywords ++ " " ++ table.sql ++ condition).toList = true ∧
        Permits allowed (" " ++ keywords ++ " " ++ table.sql ++ condition) := by
    intro keywords condition lead halts ended
    have front := leads_append_text (leads_append_text (leads_append_text (by decide : leads " ".toList = true) lead)
      (by decide : leads " ".toList = true)) named
    refine ⟨?_, permits_before (permits_plain front) halts ended⟩
    simp only [String.toList_append]
    rfl
  unfold joined
  cases found : Join.find? joins table.name with
  | none => exact clause "INNER JOIN" "" (by decide) halts_nil .nil
  | some join =>
    have permitted := each join (List.mem_of_find?_eq_some found)
    simp only [Option.map_some, Option.getD_some, Option.bind_some]
    cases condition : join.condition with
    | none => exact clause _ "" permitted.keywords halts_nil .nil
    | some text =>
      have respelled := dialect.respell_clean (permitted.condition text condition)
      refine clause _ _ permitted.keywords ?_ (permits_behind (by decide) respelled)
      rw [String.toList_append]
      exact stops_halts (by decide) _

theorem from_tables_permitted (dialect : Dialect) {joins : List Join} (each : ∀ join ∈ joins, join.Permitted allowed)
    {tables : List Table} (named : ∀ table ∈ tables, leads table.sql.toList = true) :
    Permits allowed (fromTables dialect joins tables) := by
  cases tables with
  | nil => exact permits_plain (by decide : leads ("FROM " ++ unknownTable).toList = true)
  | cons base rest =>
    have following : ∀ others : List Table, (∀ table ∈ others, leads table.sql.toList = true) →
        Halts (joinWith "" (others.map (joined dialect joins))).toList ∧
          Permits allowed (joinWith "" (others.map (joined dialect joins))) := by
      intro others leading
      induction others with
      | nil => exact ⟨halts_nil, .nil⟩
      | cons table others ih =>
        obtain ⟨stop, clean⟩ := joined_permitted dialect each (leading table (.head _))
        obtain ⟨halts, later⟩ := ih fun other member => leading other (.tail _ member)
        cases others with
        | nil =>
          have alone := stops_halts stop []
          rw [List.append_nil] at alone
          exact ⟨alone, clean⟩
        | cons second others =>
          simp only [List.map_cons, joinWith, String.append_empty] at halts later ⊢
          refine ⟨?_, permits_before clean halts later⟩
          rw [String.toList_append]
          exact stops_halts stop _
    obtain ⟨halts, later⟩ := following rest fun table member => named table (.tail _ member)
    exact permits_before (permits_behind (by decide) (permits_plain (named base (.head _)))) halts later

theorem where_permitted {tokens : List String} (each : ∀ token ∈ tokens, Permits allowed token) {text : String}
    (given : whereTokens tokens = some text) : Permits allowed text := by
  unfold whereTokens at given
  split at given
  · cases given
  · cases given
    exact permits_behind (by decide) (join_tokens_permitted each)

theorem group_by_permitted {columns : List String} (each : ∀ column ∈ columns, Permits allowed column) {text : String}
    (given : groupBy columns = some text) : Permits allowed text := by
  unfold groupBy at given
  split at given
  · cases given
  · cases given
    exact permits_behind (by decide) (permits_join_with (by decide) (by decide) each)

theorem having_permitted (dialect : Dialect) {condition : Option String}
    (permitted : ∀ text, condition = some text → Permits allowed text) {text : String}
    (given : having dialect condition = some text) : Permits allowed text := by
  cases condition with
  | none => cases given
  | some condition =>
    cases given
    exact permits_behind (by decide) (dialect.respell_clean (permitted condition rfl))

theorem unions_permitted {queries : List UnionQuery} (each : ∀ union ∈ queries, Permits allowed union.query)
    {text : String} (given : unions queries = some text) : Permits allowed text := by
  unfold unions at given
  split at given
  · cases given
  · cases given
    apply permits_join_with (by decide) (by decide)
    intro text member
    obtain ⟨union, present, rfl⟩ := List.mem_map.1 member
    refine permits_behind ?_ (each union present)
    split <;> decide

theorem order_by_permitted (dialect : Dialect) {items : List OrderItem} {offset : Option String}
    (each : ∀ item ∈ items, Permits allowed item.column) {text : String}
    (given : orderBy dialect items offset = some text) : Permits allowed text := by
  unfold orderBy at given
  split at given
  · split at given
    · cases given
      exact permits_plain (by decide)
    · cases given
  · cases given
    apply permits_behind (by decide)
    apply permits_join_with (by decide) (by decide)
    intro text member
    obtain ⟨item, present, rfl⟩ := List.mem_map.1 member
    refine permits_joined (dialect.respell_clean (each item present)) (by decide) (by decide) (permits_plain ?_)
    cases item.direction <;> decide

theorem limit_permitted (dialect : Dialect) {count offset : Option String}
    (counted : ∀ text, count = some text → Permits allowed text)
    (skipped : ∀ text, offset = some text → Permits allowed text) {text : String}
    (given : limit dialect count offset = some text) : Permits allowed text := by
  unfold limit at given
  split at given
  · cases given
  · cases given
  · rename_i offset
    cases given
    exact permits_enclosed (by decide) (skipped offset rfl) (by decide) (by decide)
  · rename_i count offset
    cases given
    have fetched := permits_joined (permits_behind (by decide : leads "OFFSET ".toList = true) (skipped offset rfl))
      (by decide : stops " ROWS FETCH NEXT ".toList = true) (by decide) (counted count rfl)
    exact permits_closed fetched (by decide) (by decide)
  · rename_i count _
    cases given
    exact permits_behind (by decide) (counted count rfl)
  · rename_i offset
    cases given
    exact permits_behind (by decide) (skipped offset rfl)
  · rename_i offset
    cases given
    exact permits_behind (by decide) (skipped offset rfl)
  · rename_i count offset _
    cases given
    exact permits_joined (permits_behind (by decide) (counted count rfl)) (by decide) (by decide) (skipped offset rfl)

-- The limit in front of the columns is behind a blank, and ends in one.
theorem top_permitted (dialect : Dialect) {count offset : Option String}
    (counted : ∀ text, count = some text → Permits allowed text) {columns : String} (listed : Permits allowed columns) :
    Permits allowed (top dialect count offset ++ columns) := by
  unfold top
  split
  · rename_i count
    have permitted := counted count rfl
    split
    · exact permits_joined (permits_behind (by decide) permitted) (by decide) (by decide) listed
    · exact permits_joined (permits_behind (by decide) permitted) (by decide) (by decide) listed
  · simpa using listed

theorem select_permitted (dialect : Dialect) (distinct : Bool) {count offset : Option String} {columns : List String}
    (counted : ∀ text, count = some text → Permits allowed text) (each : ∀ column ∈ columns, Permits allowed column) :
    Permits allowed (select dialect distinct count offset columns) := by
  have listed : Permits allowed (if columns.isEmpty then "*" else joinWith ", " columns) := by
    split
    · exact permits_plain (by decide)
    · exact permits_join_with (by decide) (by decide) each
  have introduction : leads ("SELECT " ++ (if distinct then "DISTINCT " else "")).toList = true := by
    cases distinct <;> decide
  unfold select
  rw [String.append_assoc]
  exact permits_behind introduction (top_permitted dialect counted listed)

theorem known_columns_lead {table : String} {columns : List String}
    (known : InsertTarget.knownColumns? table = some columns) : leads (joinWith ", " columns).toList = true := by
  unfold InsertTarget.knownColumns? at known
  split at known <;> cases known <;> decide

theorem insert_columns_lead (guess : Bool) (target : InsertTarget) {columns : List Column}
    (each : ∀ column ∈ columns, column.Permitted allowed) (free : target.columns = []) :
    leads (insertColumns guess target (columns.map Column.outputName?)).toList = true := by
  unfold insertColumns
  rw [free, if_neg (by simp)]
  split
  · rename_i names projected
    apply leads_join_with (by decide)
    unfold projectedNames? at projected
    split at projected
    · cases projected
    · exact Column.outputs_lead each projected
  · split
    · rename_i known found
      apply @known_columns_lead target.table known
      split at found
      · exact found
      · cases found
    · decide

theorem insertion_permitted (dialect : Dialect) (target : InsertTarget) (hasUnions : Bool) {columns query : String}
    (into : leads target.table.toList = true) (listed : leads columns.toList = true) (body : Permits allowed query) :
    Permits allowed (insertion dialect target columns hasUnions query) := by
  have front : leads ("INSERT INTO " ++ target.table ++ " (" ++ columns ++ ")\n").toList = true :=
    leads_append_text (leads_append_text (leads_append_text (leads_append_text (by decide) into) (by decide)) listed)
      (by decide)
  unfold insertion
  apply permits_behind front
  split
  · exact permits_enclosed (by decide) body (by decide) (by decide)
  · exact body

end Clause

theorem Statement.sql_permitted (dialect : Dialect) (guess : Bool) {statement : Statement}
    (permitted : Statement.Permitted allowed statement) : Permits allowed (Statement.sql dialect guess statement) := by
  have columns := Column.sqls_permitted dialect guess permitted.columns
  have groups := Column.sqls_permitted dialect guess permitted.groupBy
  have tokens := Condition.sqls_permitted dialect permitted.conditions
  rw [Likeness.statement_sql]
  unfold Select.assemble
  have query : ∀ clauses : List (Option String), (∀ clause ∈ clauses, ∀ text, clause = some text → Permits allowed text) →
      Permits allowed (joinWith " " (clauses.filterMap id)) := by
    intro clauses each
    apply permits_join_with (by decide) (by decide)
    intro text member
    obtain ⟨clause, present, given⟩ := List.mem_filterMap.1 member
    exact each clause present text given
  have body := query [some (Clause.select dialect statement.distinct statement.limit statement.offset
      (Column.sqls dialect guess statement.columns)), some (Clause.fromTables dialect statement.joins statement.tables),
      Clause.whereTokens (Condition.sqls dialect statement.conditions),
      Clause.groupBy (Column.sqls dialect guess statement.groupBy), Clause.having dialect statement.having,
      Clause.unions statement.unions, Clause.orderBy dialect statement.orderBy statement.offset,
      Clause.limit dialect statement.limit statement.offset] (by
    simp only [List.forall_mem_cons, Option.some.injEq, forall_eq', List.not_mem_nil, false_imp_iff, implies_true,
      and_true]
    exact ⟨Clause.select_permitted dialect _ permitted.limit columns,
      Clause.from_tables_permitted dialect permitted.joins permitted.tables,
      fun _ => Clause.where_permitted tokens, fun _ => Clause.group_by_permitted groups,
      fun _ => Clause.having_permitted dialect permitted.having, fun _ => Clause.unions_permitted permitted.unions,
      fun _ => Clause.order_by_permitted dialect permitted.orderBy,
      fun _ => Clause.limit_permitted dialect permitted.limit permitted.offset⟩)
  cases given : statement.insert with
  | none => exact body
  | some target =>
    obtain ⟨into, free⟩ := permitted.insert target given
    exact Clause.insertion_permitted dialect target _ into
      (Clause.insert_columns_lead guess target permitted.columns free) body

end PipeSql
