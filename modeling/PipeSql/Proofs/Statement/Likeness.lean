import PipeSql.Proofs.Dialect.Spelling
import PipeSql.Statement.Sql

set_option autoImplicit false

namespace PipeSql

-- When two texts count as the same: kept by what is done to texts on their way into a statement and out of it.
structure Likeness where
  Like : String → String → Prop
  contents : String → String
  plain : ∀ text : String, '\'' ∉ text.toList → Like text text
  rigid : ∀ {left right : String}, Like left right → '\'' ∉ left.toList ∨ '\'' ∉ right.toList → left = right
  append : ∀ {first second third fourth : String}, Like first second → Like third fourth →
    Like (first ++ third) (second ++ fourth)
  literal : ∀ value : String, Like (Text.sqlLiteral value) (Text.sqlLiteral (contents value))
  respell : ∀ (dialect : Dialect) {left right : String}, Like left right →
    Like (dialect.respell left) (dialect.respell right)

namespace Likeness

def equality : Likeness where
  Like := Eq
  contents := id
  plain _ _ := rfl
  rigid same _ := same
  append left right := by rw [left, right]
  literal _ := rfl
  respell _ _ _ same := by rw [same]

theorem sql_literal_chars (value : String) :
    (Text.sqlLiteral value).toList = '\'' :: (Text.doubleQuotes value.toList ++ ['\'']) := by
  simp [Text.sqlLiteral, Text.escapeLiteral]

def blanked : Likeness where
  Like left right := Text.Alike left.toList right.toList
  contents _ := ""
  plain _ free := Text.alike_of_no_quote free
  rigid alike free := String.toList_inj.1 (Text.alike_rigid alike free)
  append left right := by
    rw [String.toList_append, String.toList_append]
    exact Text.alike_append left right
  literal value := by
    rw [sql_literal_chars, sql_literal_chars]
    exact Text.alike_literal _ _
  respell dialect _ _ alike := dialect.respell_alike alike

variable (likeness : Likeness)

theorem digits_like {left right : String} (like : likeness.Like left right) :
    left.toList.all Char.isDigit = right.toList.all Char.isDigit := by
  have outside : ∀ text : String, text.toList.all Char.isDigit = true → '\'' ∉ text.toList := by
    intro text digits quote
    have digit := List.all_eq_true.1 digits '\'' quote
    revert digit
    decide
  by_cases leftDigits : left.toList.all Char.isDigit = true
  · rw [likeness.rigid like (.inl (outside left leftDigits))]
  · by_cases rightDigits : right.toList.all Char.isDigit = true
    · rw [likeness.rigid like (.inr (outside right rightDigits))]
    · rw [Bool.not_eq_true] at leftDigits rightDigits
      rw [leftDigits, rightDigits]

theorem constant_like {left right constant : String} (like : likeness.Like left right)
    (free : '\'' ∉ constant.toList) : (left != constant) = (right != constant) := by
  by_cases leftSame : left = constant
  · rw [← likeness.rigid like (.inl (leftSame ▸ free))]
  · by_cases rightSame : right = constant
    · rw [likeness.rigid like (.inr (rightSame ▸ free))]
    · rw [bne, bne, beq_eq_false_iff_ne.2 leftSame, beq_eq_false_iff_ne.2 rightSame]

theorem join_with_like (separator : String) (free : '\'' ∉ separator.toList) {left right : List String}
    (like : List.Forall₂ likeness.Like left right) :
    likeness.Like (Text.joinWith separator left) (Text.joinWith separator right) := by
  induction like with
  | nil => exact likeness.plain "" (by decide)
  | cons first others ih =>
    cases others with
    | nil => exact first
    | cons second others =>
      exact likeness.append (likeness.append first (likeness.plain _ free)) ih

theorem join_tokens_like {left right : List String} (like : List.Forall₂ likeness.Like left right) :
    likeness.Like (Clause.joinTokens left) (Clause.joinTokens right) := by
  induction like with
  | nil => exact likeness.plain _ (by decide)
  | cons first others ih =>
    cases others with
    | nil => exact first
    | cons second others =>
      rw [Clause.joinTokens, Clause.joinTokens]
      refine likeness.append (likeness.append first ?_) ih
      rw [likeness.constant_like first (by decide), likeness.constant_like second (by decide)]
      split
      · exact likeness.plain _ (by decide)
      · exact likeness.plain _ (by decide)

inductive ColumnLike : Column → Column → Prop where
  | named (name : String) (table label : Option String) (nameLike : likeness.Like name name)
      (tableLike : ∀ given, table = some given → likeness.Like given given)
      (labelLike : ∀ given, label = some given → likeness.Like given given) :
      ColumnLike (.named name table label) (.named name table label)
  | expression (left right : String) (label : Option String) (like : likeness.Like left right)
      (labelLike : ∀ given, label = some given → likeness.Like given given) :
      ColumnLike (.expression left label) (.expression right label)
  | wildcard (table : Option String) (tableLike : ∀ given, table = some given → likeness.Like given given) :
      ColumnLike (.wildcard table) (.wildcard table)

inductive ConditionLike : Condition Column → Condition Column → Prop where
  | comparison (left other : Column) (operator : Comparison) (right last : String)
      (columnLike : likeness.ColumnLike left other) (textLike : likeness.Like right last) :
      ConditionLike (.comparison left operator right) (.comparison other operator last)
  | connective (connective : Connective) : ConditionLike (.connective connective) (.connective connective)
  | opening : ConditionLike .opening .opening
  | closing : ConditionLike .closing .closing
  | expression (left right : String) (like : likeness.Like left right) :
      ConditionLike (.expression left) (.expression right)

structure JoinLike (left right : Join) : Prop where
  table : left.right = right.right
  condition : Option.Rel likeness.Like left.condition right.condition
  keywords : likeness.Like (Join.keywords left.joinType) (Join.keywords right.joinType)

structure OrderLike (left right : OrderItem) : Prop where
  column : likeness.Like left.column right.column
  direction : left.direction = right.direction

structure UnionLike (left right : UnionQuery) : Prop where
  all : left.all = right.all
  query : likeness.Like left.query right.query

structure StatementLike (left right : Statement) : Prop where
  columns : List.Forall₂ likeness.ColumnLike left.columns right.columns
  tables : left.tables = right.tables
  tableLike : ∀ table ∈ left.tables, likeness.Like table.sql table.sql
  joins : List.Forall₂ likeness.JoinLike left.joins right.joins
  conditions : List.Forall₂ likeness.ConditionLike left.conditions right.conditions
  groupBy : List.Forall₂ likeness.ColumnLike left.groupBy right.groupBy
  orderBy : List.Forall₂ likeness.OrderLike left.orderBy right.orderBy
  having : Option.Rel likeness.Like left.having right.having
  limit : Option.Rel likeness.Like left.limit right.limit
  offset : Option.Rel likeness.Like left.offset right.offset
  distinct : left.distinct = right.distinct
  unions : List.Forall₂ likeness.UnionLike left.unions right.unions
  insert : left.insert = right.insert
  insertLike : ∀ target, left.insert = some target → likeness.Like target.table target.table ∧ target.columns = []

variable {likeness}

theorem column_like_name {left right : Column} (like : likeness.ColumnLike left right) :
    left.outputName? = right.outputName? ∧
      ∀ name, left.outputName? = some name → likeness.Like name name := by
  cases like with
  | named name table label nameLike tableLike labelLike =>
    refine ⟨rfl, ?_⟩
    cases label with
    | none =>
      rintro _ ⟨⟩
      exact nameLike
    | some label =>
      rintro _ ⟨⟩
      exact labelLike label rfl
  | expression left right label like labelLike => exact ⟨rfl, labelLike⟩
  | wildcard table tableLike => exact ⟨rfl, fun _ absent => nomatch absent⟩

theorem renamed_like {left right : String} {label : Option String} (like : likeness.Like left right)
    (labelLike : ∀ given, label = some given → likeness.Like given given) :
    likeness.Like (Column.renamed left label) (Column.renamed right label) := by
  cases label with
  | none => exact like
  | some label =>
    exact likeness.append (likeness.append like (likeness.plain _ (by decide))) (labelLike label rfl)

theorem qualified_name_like {name : String} {table : Option String} (nameLike : likeness.Like name name)
    (tableLike : ∀ given, table = some given → likeness.Like given given) :
    likeness.Like (Column.qualifiedName table name) (Column.qualifiedName table name) := by
  cases table with
  | none => exact nameLike
  | some table =>
    exact likeness.append (likeness.append (tableLike table rfl) (likeness.plain _ (by decide))) nameLike

theorem column_sql_like (dialect : Dialect) (guess : Bool) {left right : Column}
    (like : likeness.ColumnLike left right) :
    likeness.Like (left.sql dialect guess) (right.sql dialect guess) := by
  cases like with
  | named name table label nameLike tableLike labelLike =>
    simp only [Column.sql]
    exact renamed_like (qualified_name_like nameLike tableLike) labelLike
  | expression left right label like labelLike =>
    simp only [Column.sql]
    exact renamed_like (likeness.respell dialect like) labelLike
  | wildcard table tableLike =>
    cases table with
    | none =>
      simp only [Column.sql]
      exact likeness.plain _ (by decide)
    | some table =>
      simp only [Column.sql]
      exact likeness.append (tableLike table rfl) (likeness.plain _ (by decide))

theorem operand_like (dialect : Dialect) {left right : Column} (like : likeness.ColumnLike left right) :
    likeness.Like (left.operand dialect (left.sql dialect true)) (right.operand dialect (right.sql dialect true)) := by
  cases like with
  | named name table label nameLike tableLike labelLike => exact qualified_name_like nameLike tableLike
  | expression left right label like labelLike => exact likeness.respell dialect like
  | wildcard table tableLike => exact column_sql_like dialect true (.wildcard table tableLike)

theorem phrase_like (dialect : Dialect) (operator : Comparison) {left other right last : String}
    (leftLike : likeness.Like left other) (rightLike : likeness.Like right last) :
    likeness.Like (operator.phrase dialect left right) (operator.phrase dialect other last) := by
  have head : likeness.Like (left ++ " " ++ operator.sql) (other ++ " " ++ operator.sql) := by
    refine likeness.append (likeness.append leftLike (likeness.plain _ (by decide))) (likeness.plain _ ?_)
    cases operator <;> decide
  unfold Comparison.phrase
  split
  · exact head
  · exact likeness.append (likeness.append head (likeness.plain _ (by decide)))
      (likeness.respell dialect rightLike)

theorem condition_sqls_like (dialect : Dialect) {left right : List (Condition Column)}
    (like : List.Forall₂ likeness.ConditionLike left right) :
    List.Forall₂ likeness.Like (Condition.sqls dialect left) (Condition.sqls dialect right) := by
  induction like with
  | nil => exact .nil
  | cons first others ih =>
    cases first with
    | comparison left other operator right last columnLike textLike =>
      exact .cons (phrase_like dialect operator (operand_like dialect columnLike) textLike) ih
    | connective connective =>
      exact .cons (likeness.plain _ (by cases connective <;> decide)) ih
    | opening => exact .cons (likeness.plain _ (by decide)) ih
    | closing => exact .cons (likeness.plain _ (by decide)) ih
    | expression left right like => exact .cons (likeness.respell dialect like) ih

theorem column_sqls_like (dialect : Dialect) (guess : Bool) {left right : List Column}
    (like : List.Forall₂ likeness.ColumnLike left right) :
    List.Forall₂ likeness.Like (Column.sqls dialect guess left) (Column.sqls dialect guess right) := by
  induction like with
  | nil => exact .nil
  | cons first others ih => exact .cons (column_sql_like dialect guess first) ih

theorem present_like {left right : List (Option String)}
    (like : List.Forall₂ (Option.Rel likeness.Like) left right) :
    List.Forall₂ likeness.Like (left.filterMap id) (right.filterMap id) := by
  induction like with
  | nil => exact .nil
  | cons first others ih =>
    cases first with
    | none => exact ih
    | some like => exact .cons like ih

theorem joined_like (dialect : Dialect) {left right : List Join} {table : Table}
    (like : List.Forall₂ likeness.JoinLike left right) (tableLike : likeness.Like table.sql table.sql) :
    likeness.Like (Clause.joined dialect left table) (Clause.joined dialect right table) := by
  have found : Option.Rel likeness.JoinLike (Join.find? left table.name) (Join.find? right table.name) := by
    induction like with
    | nil => exact .none
    | cons first others ih =>
      simp only [Join.find?, List.find?_cons] at ih ⊢
      rw [first.table]
      split
      · exact .some first
      · exact ih
  have clause : ∀ keywords other condition last : String, likeness.Like keywords other →
      likeness.Like condition last →
      likeness.Like (" " ++ keywords ++ " " ++ table.sql ++ condition) (" " ++ other ++ " " ++ table.sql ++ last) := by
    intro keywords other condition last keywordsLike conditionLike
    have space : likeness.Like " " " " := likeness.plain _ (by decide)
    exact likeness.append (likeness.append (likeness.append (likeness.append space keywordsLike) space) tableLike)
      conditionLike
  unfold Clause.joined
  generalize Join.find? left table.name = first at found ⊢
  generalize Join.find? right table.name = second at found ⊢
  cases found with
  | none => exact clause "INNER JOIN" "INNER JOIN" "" "" (likeness.plain _ (by decide)) (likeness.plain _ (by decide))
  | @some first second found =>
    simp only [Option.map_some, Option.getD_some, Option.bind_some]
    refine clause _ _ _ _ found.keywords ?_
    have conditionLike := found.condition
    generalize first.condition = condition at conditionLike ⊢
    generalize second.condition = last at conditionLike ⊢
    cases conditionLike with
    | none => exact likeness.plain "" (by decide)
    | some like => exact likeness.append (likeness.plain _ (by decide)) (likeness.respell dialect like)

theorem from_tables_like (dialect : Dialect) {left right : List Join} (tables : List Table)
    (like : List.Forall₂ likeness.JoinLike left right)
    (tableLike : ∀ table ∈ tables, likeness.Like table.sql table.sql) :
    likeness.Like (Clause.fromTables dialect left tables) (Clause.fromTables dialect right tables) := by
  cases tables with
  | nil => exact likeness.plain ("FROM " ++ Clause.unknownTable) (by decide)
  | cons base rest =>
    have joined : List.Forall₂ likeness.Like (rest.map (Clause.joined dialect left)) (rest.map (Clause.joined dialect right)) := by
      rw [List.forall₂_map_left_iff, List.forall₂_map_right_iff, List.forall₂_same]
      intro table member
      exact joined_like dialect like (tableLike table (.tail _ member))
    refine likeness.append (likeness.append (likeness.plain _ (by decide)) (tableLike base (.head _))) ?_
    exact likeness.join_with_like _ (by decide) joined

theorem where_tokens_like {left right : List String} (like : List.Forall₂ likeness.Like left right) :
    Option.Rel likeness.Like (Clause.whereTokens left) (Clause.whereTokens right) := by
  cases like with
  | nil => exact .none
  | cons first others =>
    exact .some (likeness.append (likeness.plain _ (by decide)) (likeness.join_tokens_like (.cons first others)))

theorem group_by_like {left right : List String} (like : List.Forall₂ likeness.Like left right) :
    Option.Rel likeness.Like (Clause.groupBy left) (Clause.groupBy right) := by
  cases like with
  | nil => exact .none
  | cons first others =>
    exact .some (likeness.append (likeness.plain _ (by decide))
      (likeness.join_with_like _ (by decide) (.cons first others)))

theorem having_like (dialect : Dialect) {left right : Option String} (like : Option.Rel likeness.Like left right) :
    Option.Rel likeness.Like (Clause.having dialect left) (Clause.having dialect right) := by
  cases like with
  | none => exact .none
  | some like => exact .some (likeness.append (likeness.plain _ (by decide)) (likeness.respell dialect like))

theorem unions_like {left right : List UnionQuery}
    (like : List.Forall₂ likeness.UnionLike left right) :
    Option.Rel likeness.Like (Clause.unions left) (Clause.unions right) := by
  have texts : List.Forall₂ likeness.Like
      (left.map fun query => (if query.all then "UNION ALL " else "UNION ") ++ query.query)
      (right.map fun query => (if query.all then "UNION ALL " else "UNION ") ++ query.query) := by
    rw [List.forall₂_map_left_iff, List.forall₂_map_right_iff]
    refine like.imp ?_
    rintro query other ⟨all, queryLike⟩
    rw [all]
    refine likeness.append (likeness.plain _ ?_) queryLike
    split <;> decide
  cases like with
  | nil => exact .none
  | cons first others => exact .some (likeness.join_with_like _ (by decide) texts)

theorem order_by_like (dialect : Dialect) {left right : List OrderItem} {offset other : Option String}
    (like : List.Forall₂ likeness.OrderLike left right) (offsetLike : Option.Rel likeness.Like offset other) :
    Option.Rel likeness.Like (Clause.orderBy dialect left offset) (Clause.orderBy dialect right other) := by
  have texts : List.Forall₂ likeness.Like
      (left.map fun item => dialect.respell item.column ++ " " ++ item.direction.sql)
      (right.map fun item => dialect.respell item.column ++ " " ++ item.direction.sql) := by
    rw [List.forall₂_map_left_iff, List.forall₂_map_right_iff]
    refine like.imp ?_
    rintro item other ⟨columnLike, direction⟩
    rw [direction]
    refine likeness.append (likeness.append (likeness.respell dialect columnLike) (likeness.plain _ (by decide)))
      (likeness.plain _ ?_)
    cases other.direction <;> decide
  cases like with
  | nil =>
    cases offsetLike with
    | none => cases dialect <;> exact .none
    | some offsetLike =>
      cases dialect with
      | sqlite => exact .none
      | postgresql => exact .none
      | sqlserver => exact .some (likeness.plain _ (by decide))
  | cons first others =>
    exact .some (likeness.append (likeness.plain _ (by decide)) (likeness.join_with_like _ (by decide) texts))

theorem limit_like (dialect : Dialect) {limit second offset other : Option String}
    (limitLike : Option.Rel likeness.Like limit second) (offsetLike : Option.Rel likeness.Like offset other) :
    Option.Rel likeness.Like (Clause.limit dialect limit offset) (Clause.limit dialect second other) := by
  have introduced : ∀ (introduction : String) {left right : String}, '\'' ∉ introduction.toList →
      likeness.Like left right → likeness.Like (introduction ++ left) (introduction ++ right) :=
    fun introduction _ _ free like => likeness.append (likeness.plain introduction free) like
  have offsetFirst : ∀ {left right : String}, likeness.Like left right →
      likeness.Like ("OFFSET " ++ left ++ " ROWS") ("OFFSET " ++ right ++ " ROWS") :=
    fun like => likeness.append (introduced _ (by decide) like) (likeness.plain _ (by decide))
  cases limitLike with
  | none =>
    cases offsetLike with
    | none => cases dialect <;> exact .none
    | some offsetLike =>
      cases dialect with
      | sqlite => exact .some (introduced _ (by decide) offsetLike)
      | postgresql => exact .some (introduced _ (by decide) offsetLike)
      | sqlserver => exact .some (offsetFirst offsetLike)
  | some limitLike =>
    cases offsetLike with
    | none =>
      cases dialect with
      | sqlite => exact .some (introduced _ (by decide) limitLike)
      | postgresql => exact .some (introduced _ (by decide) limitLike)
      | sqlserver => exact .none
    | some offsetLike =>
      have bounded := likeness.append (likeness.append (introduced "LIMIT " (by decide) limitLike)
        (likeness.plain " OFFSET " (by decide))) offsetLike
      cases dialect with
      | sqlite => exact .some bounded
      | postgresql => exact .some bounded
      | sqlserver =>
        exact .some (likeness.append (likeness.append (likeness.append (introduced "OFFSET " (by decide) offsetLike)
          (likeness.plain " ROWS FETCH NEXT " (by decide))) limitLike) (likeness.plain " ROWS ONLY" (by decide)))

theorem top_like (dialect : Dialect) {limit second offset other : Option String}
    (limitLike : Option.Rel likeness.Like limit second) (offsetLike : Option.Rel likeness.Like offset other) :
    likeness.Like (Clause.top dialect limit offset) (Clause.top dialect second other) := by
  have absent : likeness.Like "" "" := likeness.plain _ (by decide)
  cases limitLike with
  | none => cases dialect <;> exact absent
  | some limitLike =>
    cases offsetLike with
    | some offsetLike => cases dialect <;> exact absent
    | none =>
      cases dialect with
      | sqlite => exact absent
      | postgresql => exact absent
      | sqlserver =>
        simp only [Clause.top, likeness.digits_like limitLike]
        split
        · exact likeness.append (likeness.append (likeness.plain _ (by decide)) limitLike) (likeness.plain _ (by decide))
        · exact likeness.append (likeness.append (likeness.plain _ (by decide)) limitLike) (likeness.plain _ (by decide))

theorem select_like (dialect : Dialect) (distinct : Bool) {limit second offset other : Option String}
    {left right : List String} (limitLike : Option.Rel likeness.Like limit second)
    (offsetLike : Option.Rel likeness.Like offset other) (like : List.Forall₂ likeness.Like left right) :
    likeness.Like (Clause.select dialect distinct limit offset left) (Clause.select dialect distinct second other right) := by
  have columns : likeness.Like (if left.isEmpty then "*" else Text.joinWith ", " left)
      (if right.isEmpty then "*" else Text.joinWith ", " right) := by
    cases like with
    | nil => exact likeness.plain _ (by decide)
    | cons first others => exact likeness.join_with_like _ (by decide) (.cons first others)
  have introduction : likeness.Like ("SELECT " ++ (if distinct then "DISTINCT " else ""))
      ("SELECT " ++ (if distinct then "DISTINCT " else "")) := likeness.plain _ (by cases distinct <;> decide)
  exact likeness.append (likeness.append introduction (top_like dialect limitLike offsetLike)) columns

theorem projected_names_like {left right : List Column} (like : List.Forall₂ likeness.ColumnLike left right) :
    left.map Column.outputName? = right.map Column.outputName? ∧
      ∀ names, (left.map Column.outputName?).mapM id = some names → ∀ name ∈ names, likeness.Like name name := by
  induction like with
  | nil =>
    refine ⟨rfl, ?_⟩
    rintro names ⟨⟩ name ⟨⟩
  | @cons column other columns others first rest ih =>
    have named := column_like_name first
    refine ⟨by rw [List.map_cons, List.map_cons, named.1, ih.1], ?_⟩
    intro names projected name member
    simp only [List.map_cons, List.mapM_cons, Option.bind_eq_bind, id, Option.bind_eq_some_iff] at projected
    obtain ⟨output, given, outputs, followed, combined⟩ := projected
    cases combined
    rcases List.mem_cons.1 member with rfl | member
    · exact named.2 _ given
    · exact ih.2 _ followed name member

theorem known_columns_quiet {table : String} {columns : List String}
    (known : InsertTarget.knownColumns? table = some columns) : '\'' ∉ (Text.joinWith ", " columns).toList := by
  unfold InsertTarget.knownColumns? at known
  split at known <;> cases known <;> decide

theorem insert_columns_like (guess : Bool) (target : InsertTarget) {left right : List Column}
    (like : List.Forall₂ likeness.ColumnLike left right) (free : target.columns = []) :
    likeness.Like (Clause.insertColumns guess target (left.map Column.outputName?))
      (Clause.insertColumns guess target (right.map Column.outputName?)) := by
  obtain ⟨same, named⟩ := projected_names_like like
  rw [← same]
  unfold Clause.insertColumns
  rw [free, if_neg (by simp)]
  split
  · rename_i names projected
    have namesLike : ∀ name ∈ names, likeness.Like name name := by
      unfold Clause.projectedNames? at projected
      split at projected
      · cases projected
      · exact named names projected
    exact likeness.join_with_like _ (by decide) (List.forall₂_same.2 namesLike)
  · split
    · rename_i columns known
      refine likeness.plain _ (@known_columns_quiet target.table columns ?_)
      split at known
      · exact known
      · cases known
    · exact likeness.plain _ (by decide)

theorem insertion_like (dialect : Dialect) (target : InsertTarget) (hasUnions : Bool)
    {columns others query last : String} (tableLike : likeness.Like target.table target.table)
    (columnsLike : likeness.Like columns others) (queryLike : likeness.Like query last) :
    likeness.Like (Clause.insertion dialect target columns hasUnions query)
      (Clause.insertion dialect target others hasUnions last) := by
  have body : likeness.Like (if dialect = .postgresql && hasUnions then "(" ++ query ++ ")" else query)
      (if dialect = .postgresql && hasUnions then "(" ++ last ++ ")" else last) := by
    split
    · exact likeness.append (likeness.append (likeness.plain _ (by decide)) queryLike) (likeness.plain _ (by decide))
    · exact queryLike
  have into := likeness.append (likeness.plain "INSERT INTO " (by decide)) tableLike
  have listed := likeness.append (likeness.append into (likeness.plain " (" (by decide))) columnsLike
  exact likeness.append (likeness.append listed (likeness.plain ")\n" (by decide))) body

theorem statement_sql (dialect : Dialect) (guess : Bool) (statement : Statement) :
    Statement.sql dialect guess statement = statement.assemble dialect guess
      (Column.sqls dialect guess statement.columns) (Column.sqls dialect guess statement.groupBy)
      (Condition.sqls dialect statement.conditions) (statement.columns.map Column.outputName?) := by
  cases statement
  rw [Statement.sql]

theorem sql_like (dialect : Dialect) (guess : Bool) {left right : Statement} (like : likeness.StatementLike left right) :
    likeness.Like (Statement.sql dialect guess left) (Statement.sql dialect guess right) := by
  have columns := column_sqls_like dialect guess like.columns
  have groups := column_sqls_like dialect guess like.groupBy
  have tokens := condition_sqls_like dialect like.conditions
  have clauses := List.Forall₂.cons (.some (select_like dialect left.distinct like.limit like.offset columns))
    (.cons (.some (from_tables_like dialect left.tables like.joins like.tableLike))
    (.cons (where_tokens_like tokens)
    (.cons (group_by_like groups)
    (.cons (having_like dialect like.having)
    (.cons (unions_like like.unions)
    (.cons (order_by_like dialect like.orderBy like.offset)
    (.cons (limit_like dialect like.limit like.offset) .nil)))))))
  have query := likeness.join_with_like " " (by decide) (present_like clauses)
  have unions : left.unions.isEmpty = right.unions.isEmpty := by
    rw [Bool.eq_iff_iff, List.isEmpty_iff_length_eq_zero, List.isEmpty_iff_length_eq_zero, like.unions.length_eq]
  rw [statement_sql, statement_sql]
  unfold Select.assemble
  rw [← like.insert, ← like.distinct, ← like.tables, unions]
  cases given : left.insert with
  | none => exact query
  | some target =>
    obtain ⟨tableLike, free⟩ := like.insertLike target given
    exact insertion_like dialect target _ tableLike (insert_columns_like guess target like.columns free) query

theorem balanced_like (depth : Nat) {left right : List (Condition Column)}
    (like : List.Forall₂ likeness.ConditionLike left right) :
    Condition.balancedFrom depth left = Condition.balancedFrom depth right := by
  induction like generalizing depth with
  | nil => rfl
  | cons first others ih =>
    cases first with
    | comparison | connective | expression => simpa [Condition.balancedFrom] using ih depth
    | opening => simpa [Condition.balancedFrom] using ih (depth + 1)
    | closing =>
      cases depth with
      | zero => rfl
      | succ depth => simpa [Condition.balancedFrom] using ih depth

theorem are_writable {left right : List Column} (like : List.Forall₂ likeness.ColumnLike left right) :
    Column.areWritable left = true ∧ Column.areWritable right = true := by
  induction like with
  | nil => exact ⟨rfl, rfl⟩
  | cons first others ih => cases first <;> simpa [Column.areWritable, Column.isWritable] using ih

theorem conditions_are_writable {left right : List (Condition Column)}
    (like : List.Forall₂ likeness.ConditionLike left right) :
    Condition.areWritable left = true ∧ Condition.areWritable right = true := by
  induction like with
  | nil => exact ⟨rfl, rfl⟩
  | cons first others ih =>
    cases first with
    | comparison left other operator right last columnLike textLike =>
      cases columnLike <;> simpa [Condition.areWritable, Column.isWritable] using ih
    | connective | opening | closing | expression => simpa [Condition.areWritable] using ih

theorem writable_like {left right : Statement} (like : likeness.StatementLike left right) :
    Statement.isWritable left = Statement.isWritable right := by
  have columns := are_writable like.columns
  have groups := are_writable like.groupBy
  have conditions := conditions_are_writable like.conditions
  have balanced := balanced_like 0 like.conditions
  cases left
  cases right
  simp only [Statement.isWritable, Condition.balanced]
  simp_all

end Likeness

end PipeSql
