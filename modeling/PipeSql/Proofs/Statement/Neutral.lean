import PipeSql.Proofs.Dialect.Neutral
import PipeSql.Statement.Sql

set_option autoImplicit false

namespace PipeSql

def Column.texts : Column → List String
  | .expression text _ => [text]
  | .named _ _ _ | .wildcard _ | .subQuery _ _ => []

def Condition.texts : Condition Column → List String
  | .comparison left _ right => left.texts ++ [right]
  | .expression text => [text]
  | .connective _ | .opening | .closing => []

namespace Statement

-- The texts of a statement that a dialect may respell, without those of nested statements.
def texts (statement : Select Column) : List String :=
  statement.columns.flatMap Column.texts ++ statement.groupBy.flatMap Column.texts ++
    statement.conditions.flatMap Condition.texts ++ statement.joins.filterMap Join.condition ++
    statement.having.toList ++ statement.orderBy.map OrderItem.column

-- Nothing in the statement itself depends on the dialect.
def isPlain (statement : Select Column) : Bool :=
  statement.limit.isNone && statement.offset.isNone && (statement.insert.isNone || statement.unions.isEmpty) &&
    (texts statement).all Dialect.isNeutral

end Statement

mutual

-- The statement and the statements in its columns, groups and comparisons, at any depth.
def Statement.nested : Select Column → List (Select Column)
  | ⟨columns, tables, parameters, joins, conditions, groupBy, orderBy, having, limit, offset, distinct, unions,
      insert⟩ =>
    Select.mk columns tables parameters joins conditions groupBy orderBy having limit offset distinct unions insert ::
      (Column.nestedAll columns ++ Column.nestedAll groupBy ++ Condition.nestedAll conditions)

def Column.nested : Column → List (Select Column)
  | .subQuery query _ => Statement.nested query
  | .named _ _ _ | .expression _ _ | .wildcard _ => []

def Column.nestedAll : List Column → List (Select Column)
  | [] => []
  | column :: rest => column.nested ++ Column.nestedAll rest

def Condition.nestedAll : List (Condition Column) → List (Select Column)
  | [] => []
  | .comparison left _ _ :: rest => left.nested ++ Condition.nestedAll rest
  | .connective _ :: rest | .opening :: rest | .closing :: rest | .expression _ :: rest => Condition.nestedAll rest

end

def Statement.isNeutral (statement : Select Column) : Bool :=
  (Statement.nested statement).all Statement.isPlain

variable (first second : Dialect)

theorem respell_same {text : String} (neutral : Dialect.isNeutral text = true) :
    first.respell text = second.respell text := by
  rw [first.respell_neutral neutral, second.respell_neutral neutral]

namespace Clause

theorem joined_same {joins : List Join} (neutral : ∀ text ∈ joins.filterMap Join.condition, Dialect.isNeutral text = true)
    (table : Table) : joined first joins table = joined second joins table := by
  unfold joined
  cases found : Join.find? joins table.name with
  | none => rfl
  | some join =>
    cases given : join.condition with
    | none => simp only [Option.bind_some, given]
    | some text =>
      have listed := List.mem_filterMap.2 ⟨join, List.mem_of_find?_eq_some found, given⟩
      simp only [Option.bind_some, given, respell_same first second (neutral text listed)]

theorem from_tables_same {joins : List Join}
    (neutral : ∀ text ∈ joins.filterMap Join.condition, Dialect.isNeutral text = true) (tables : List Table) :
    fromTables first joins tables = fromTables second joins tables := by
  cases tables with
  | nil => rfl
  | cons base rest => rw [fromTables, fromTables, funext (joined_same first second neutral)]

theorem having_same {condition : Option String}
    (neutral : ∀ text ∈ condition.toList, Dialect.isNeutral text = true) :
    having first condition = having second condition := by
  cases condition with
  | none => rfl
  | some text => rw [having, having, Option.map_some, Option.map_some, respell_same first second (neutral text (.head _))]

theorem order_by_same {items : List OrderItem}
    (neutral : ∀ text ∈ items.map OrderItem.column, Dialect.isNeutral text = true) :
    orderBy first items none = orderBy second items none := by
  have respelled : ∀ item ∈ items, first.respell item.column ++ " " ++ item.direction.sql =
      second.respell item.column ++ " " ++ item.direction.sql := by
    intro item member
    rw [respell_same first second (neutral item.column (List.mem_map_of_mem member))]
  unfold orderBy
  rw [List.map_congr_left respelled]
  cases first <;> cases second <;> rfl

theorem limit_none (dialect : Dialect) : limit dialect none none = none := by
  cases dialect <;> rfl

theorem select_same (distinct : Bool) (columns : List String) :
    select first distinct none none columns = select second distinct none none columns := by
  cases first <;> cases second <;> rfl

theorem insertion_same (target : InsertTarget) (columns query : String) :
    insertion first target columns false query = insertion second target columns false query := by
  cases first <;> cases second <;> rfl

end Clause

theorem Select.assemble_same (guess : Bool) {statement : Select Column} (plain : Statement.isPlain statement = true)
    (columns groups tokens : List String) (names : List (Option String)) :
    statement.assemble first guess columns groups tokens names =
      statement.assemble second guess columns groups tokens names := by
  simp only [Statement.isPlain, Bool.and_eq_true, Option.isNone_iff_eq_none, Bool.or_eq_true, List.isEmpty_iff,
    List.all_eq_true, Statement.texts, List.forall_mem_append] at plain
  obtain ⟨⟨⟨limit, offset⟩, alone⟩, ⟨⟨-, joins⟩, having⟩, orderBy⟩ := plain
  unfold Select.assemble
  rw [limit, offset, Clause.select_same first second, Clause.from_tables_same first second joins,
    Clause.having_same first second having, Clause.order_by_same first second orderBy, Clause.limit_none,
    Clause.limit_none]
  cases target : statement.insert with
  | none => rfl
  | some into =>
    rcases alone with missing | single
    · rw [target] at missing
      cases missing
    · rw [single]
      exact Clause.insertion_same first second _ _ _

theorem Column.operand_same {column : Column} (neutral : ∀ text ∈ column.texts, Dialect.isNeutral text = true)
    (listed : String) : column.operand first listed = column.operand second listed := by
  cases column with
  | named | wildcard | subQuery => rfl
  | expression text label => exact respell_same first second (neutral text (.head _))

theorem Comparison.phrase_same (operator : Comparison) (left : String) {right : String}
    (neutral : Dialect.isNeutral right = true) :
    operator.phrase first left right = operator.phrase second left right := by
  rw [Comparison.phrase, Comparison.phrase, respell_same first second neutral]

-- The recursion follows the statement down into the queries among its columns.

mutual

theorem Statement.sql_same (guess : Bool) : (statement : Select Column) →
    (∀ inner ∈ Statement.nested statement, Statement.isPlain inner = true) →
    Statement.sql first guess statement = Statement.sql second guess statement
  | ⟨columns, tables, parameters, joins, conditions, groupBy, orderBy, having, limit, offset, distinct, unions,
      insert⟩, plain => by
    simp only [Statement.nested, List.forall_mem_cons, List.forall_mem_append] at plain
    obtain ⟨outer, ⟨inColumns, inGroups⟩, inConditions⟩ := plain
    have neutral := outer
    simp only [Statement.isPlain, Bool.and_eq_true, List.all_eq_true, Statement.texts, List.forall_mem_append] at neutral
    obtain ⟨-, ⟨⟨⟨⟨ofColumns, ofGroups⟩, ofConditions⟩, -⟩, -⟩, -⟩ := neutral
    rw [Statement.sql, Statement.sql, Column.sqls_same guess columns ofColumns inColumns,
      Column.sqls_same guess groupBy ofGroups inGroups, Condition.sqls_same conditions ofConditions inConditions]
    exact Select.assemble_same first second guess outer _ _ _ _

theorem Column.sql_same (guess : Bool) : (column : Column) → (∀ text ∈ column.texts, Dialect.isNeutral text = true) →
    (∀ inner ∈ column.nested, Statement.isPlain inner = true) → column.sql first guess = column.sql second guess
  | .named .., _, _ => by rw [Column.sql, Column.sql]
  | .wildcard (some _), _, _ => by rw [Column.sql, Column.sql]
  | .wildcard none, _, _ => by rw [Column.sql, Column.sql]
  | .expression text _, neutral, _ => by
    rw [Column.sql, Column.sql, respell_same first second (neutral text (.head _))]
  | .subQuery query _, _, plain => by rw [Column.sql, Column.sql, Statement.sql_same guess query plain]

theorem Column.sqls_same (guess : Bool) : (columns : List Column) →
    (∀ text ∈ columns.flatMap Column.texts, Dialect.isNeutral text = true) →
    (∀ inner ∈ Column.nestedAll columns, Statement.isPlain inner = true) →
    Column.sqls first guess columns = Column.sqls second guess columns
  | [], _, _ => by rw [Column.sqls, Column.sqls]
  | column :: rest, neutral, plain => by
    simp only [List.flatMap_cons, List.forall_mem_append] at neutral
    simp only [Column.nestedAll, List.forall_mem_append] at plain
    rw [Column.sqls, Column.sqls, Column.sql_same guess column neutral.1 plain.1,
      Column.sqls_same guess rest neutral.2 plain.2]

theorem Condition.sqls_same : (conditions : List (Condition Column)) →
    (∀ text ∈ conditions.flatMap Condition.texts, Dialect.isNeutral text = true) →
    (∀ inner ∈ Condition.nestedAll conditions, Statement.isPlain inner = true) →
    Condition.sqls first conditions = Condition.sqls second conditions
  | [], _, _ => by rw [Condition.sqls, Condition.sqls]
  | .comparison left operator right :: rest, neutral, plain => by
    simp only [List.flatMap_cons, Condition.texts, List.forall_mem_append, List.forall_mem_singleton] at neutral
    simp only [Condition.nestedAll, List.forall_mem_append] at plain
    rw [Condition.sqls, Condition.sqls, Column.sql_same true left neutral.1.1 plain.1,
      Column.operand_same first second neutral.1.1, Comparison.phrase_same first second operator _ neutral.1.2,
      Condition.sqls_same rest neutral.2 plain.2]
  | .expression text :: rest, neutral, plain => by
    simp only [List.flatMap_cons, Condition.texts, List.forall_mem_append, List.forall_mem_singleton] at neutral
    rw [Condition.sqls, Condition.sqls, respell_same first second neutral.1, Condition.sqls_same rest neutral.2 plain]
  | .connective connective :: rest, neutral, plain => by
    rw [Condition.sqls, Condition.sqls, Condition.sqls_same rest neutral plain]
  | .opening :: rest, neutral, plain => by
    rw [Condition.sqls, Condition.sqls, Condition.sqls_same rest neutral plain]
  | .closing :: rest, neutral, plain => by
    rw [Condition.sqls, Condition.sqls, Condition.sqls_same rest neutral plain]

end

/-- The dialects write a neutral statement in the same words, whether or not columns may be guessed. -/
theorem neutral_statement_is_written_alike (statement : Select Column) (neutral : Statement.isNeutral statement = true)
    (guess : Bool) (first second : Dialect) :
    Statement.sql first guess statement = Statement.sql second guess statement ∧
      Statement.write first guess statement = Statement.write second guess statement := by
  have same := Statement.sql_same first second guess statement (List.all_eq_true.1 neutral)
  refine ⟨same, ?_⟩
  rw [Statement.write, Statement.write, same]

theorem nested_query_is_written_alike :
    let newest : Select Column := { Statement.empty with
      columns := [.expression "MAX(o.total)" none], tables := [.named "o"],
      conditions := [.comparison (.named "note" (some "o") none) .notEq "'a || length(b)'"] }
    let listing : Select Column := { Statement.empty with
      columns := [.named "id" (some "u") none, .subQuery newest (some "newest")], tables := [.named "u", ⟨"o", some "x"⟩],
      joins := [⟨"u", "o", some "x.uid = u.id AND x.length(1) = 2", "left"⟩],
      conditions := [.comparison (.subQuery newest none) .greaterThan "10"],
      groupBy := [.named "id" (some "u") none], orderBy := [⟨"ABS(u.id)", .desc⟩], having := some "COUNT(*) > 1",
      insert := some ⟨"orders", []⟩ }
    Statement.isNeutral listing = true ∧ ∀ guess first second,
      Statement.sql first guess listing = Statement.sql second guess listing ∧
        Statement.write first guess listing = Statement.write second guess listing := by
  intro newest listing
  have neutral : Statement.isNeutral listing = true := by decide +kernel
  exact ⟨neutral, neutral_statement_is_written_alike listing neutral⟩

end PipeSql
