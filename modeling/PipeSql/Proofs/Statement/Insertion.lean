import Mathlib.Data.List.Forall2
import PipeSql.Statement.Sql

set_option autoImplicit false

namespace PipeSql

namespace Column

-- A column of this text has this name in the result.
inductive Shows : String → String → Prop where
  | bare (name : String) : Shows name name
  | dotted (table name : String) : Shows (table ++ "." ++ name) name
  | renamed (text name : String) : Shows (text ++ " AS " ++ name) name

theorem renamed_shows {text name : String} {label : Option String} (named : label = some name) :
    Shows (Column.renamed text label) name := by
  rw [named]
  exact .renamed text name

theorem sql_shows (dialect : Dialect) (guess : Bool) {column : Column} {name : String}
    (named : column.outputName? = some name) : Shows (column.sql dialect guess) name := by
  cases column with
  | named own table label =>
    cases label with
    | some label =>
      cases named
      exact .renamed _ label
    | none =>
      cases named
      cases table with
      | some table => exact .dotted table own
      | none => exact .bare own
  | expression text label => exact renamed_shows named
  | wildcard table => cases named
  | subQuery query label =>
    rw [Column.sql]
    exact renamed_shows named

theorem sqls_show (dialect : Dialect) (guess : Bool) {columns : List Column} {names : List String}
    (named : columns.map outputName? = names.map some) : List.Forall₂ Shows (sqls dialect guess columns) names := by
  induction columns generalizing names with
  | nil =>
    obtain rfl := List.map_eq_nil_iff.1 named.symm
    exact .nil
  | cons column rest ih =>
    cases names with
    | nil => cases named
    | cons name others =>
      obtain ⟨first, behind⟩ := List.cons.inj named
      exact .cons (sql_shows dialect guess first) (ih behind)

end Column

namespace Clause

theorem all_named_iff (options : List (Option String)) (names : List String) :
    options.mapM id = some names ↔ options = names.map some := by
  induction options generalizing names with
  | nil => cases names <;> simp
  | cons option rest ih =>
    cases option with
    | none => cases names <;> simp
    | some name =>
      cases names with
      | nil => cases given : rest.mapM id <;> simp [given]
      | cons first others =>
        rw [List.map_cons, List.cons.injEq, ← ih others]
        cases given : rest.mapM id <;> simp [given]

theorem some_unnamed {options : List (Option String)} (unnamed : ∀ names : List String, options ≠ names.map some) :
    none ∈ options := by
  induction options with
  | nil => exact absurd rfl (unnamed [])
  | cons option rest ih =>
    cases option with
    | none => exact List.mem_cons_self
    | some name =>
      refine List.mem_cons_of_mem _ (ih ?_)
      intro names eq
      exact unnamed (name :: names) (congrArg (some name :: ·) eq)

-- The list of an insertion without columns of its own, given the names of the projection.
theorem insert_columns_cases (guess : Bool) {target : InsertTarget} (bare : target.columns = [])
    {options : List (Option String)} (projected : options ≠ []) :
    (∃ names : List String, options = names.map some ∧ insertColumns guess target options = Text.joinWith ", " names) ∨
    none ∈ options ∧
      ((∃ known, guess = true ∧ InsertTarget.knownColumns? target.table = some known ∧
          insertColumns guess target options = Text.joinWith ", " known) ∨
        (guess = false ∨ InsertTarget.knownColumns? target.table = none) ∧
          insertColumns guess target options = unknownColumns) := by
  have names : projectedNames? options = options.mapM id := if_neg (by simpa using projected)
  rw [insertColumns, bare, names]
  cases given : options.mapM id with
  | some names => exact .inl ⟨names, (all_named_iff options names).1 given, rfl⟩
  | none =>
    have unnamed : none ∈ options := by
      refine some_unnamed fun names eq => ?_
      rw [(all_named_iff options names).2 eq] at given
      cases given
    refine .inr ⟨unnamed, ?_⟩
    cases guess with
    | false => exact .inr ⟨.inl rfl, rfl⟩
    | true =>
      cases listed : InsertTarget.knownColumns? target.table with
      | none => exact .inr ⟨.inr rfl, by simp⟩
      | some known => exact .inl ⟨known, rfl, rfl, by simp⟩

end Clause

-- An insertion stands in front of the statement without it, whose text begins with the selected columns.
theorem insertion_sql (dialect : Dialect) (guess : Bool) {statement : Statement} {target : InsertTarget}
    (into : statement.insert = some target) :
    Statement.sql dialect guess statement =
      Clause.insertion dialect target
        (Clause.insertColumns guess target (statement.columns.map Column.outputName?)) (!statement.unions.isEmpty)
        (Statement.sql dialect guess { statement with insert := none }) := by
  cases statement with
  | mk =>
    simp only at into
    rw [Statement.sql, Statement.sql, Select.assemble, Select.assemble, into]

theorem query_selects (dialect : Dialect) (guess : Bool) (statement : Statement) :
    ∃ rest, Statement.sql dialect guess { statement with insert := none } =
      Clause.select dialect statement.distinct statement.limit statement.offset
        (Column.sqls dialect guess statement.columns) ++ " " ++ rest := by
  cases statement with
  | mk =>
    rw [Statement.sql, Select.assemble]
    exact ⟨_, rfl⟩

theorem insertion_lists_projected_names (dialect : Dialect) (guess : Bool) (statement : Statement)
    {target : InsertTarget} (into : statement.insert = some target) (bare : target.columns = [])
    (projected : statement.columns ≠ []) :
    ∃ list query rest,
      Statement.sql dialect guess statement =
        Clause.insertion dialect target list (!statement.unions.isEmpty) query ∧
      query = Clause.select dialect statement.distinct statement.limit statement.offset
        (Column.sqls dialect guess statement.columns) ++ " " ++ rest ∧
      ((∃ names : List String, statement.columns.map Column.outputName? = names.map some ∧
          list = Text.joinWith ", " names ∧
          List.Forall₂ Column.Shows (Column.sqls dialect guess statement.columns) names) ∨
        (∃ column ∈ statement.columns, column.outputName? = none) ∧
          ((∃ known, guess = true ∧ InsertTarget.knownColumns? target.table = some known ∧
              list = Text.joinWith ", " known) ∨
            (guess = false ∨ InsertTarget.knownColumns? target.table = none) ∧ list = Clause.unknownColumns)) := by
  obtain ⟨rest, query⟩ := query_selects dialect guess statement
  refine ⟨_, _, rest, insertion_sql dialect guess into, query, ?_⟩
  rcases Clause.insert_columns_cases guess bare (mt List.map_eq_nil_iff.1 projected) with
    ⟨names, named, list⟩ | ⟨unnamed, list⟩
  · exact .inl ⟨names, named, list, Column.sqls_show dialect guess named⟩
  · exact .inr ⟨List.mem_map.1 unnamed, list⟩

-- A name, a name under an alias and an expression under an alias.
theorem renamed_columns_are_listed :
    ∃ list query rest,
      Statement.sql .sqlite true
          { Statement.empty with
            columns := [.named "id" (some "t") none, .named "mail" none (some "email"),
              .expression "COUNT(*)" (some "name")]
            tables := [.named "t"]
            insert := some ⟨"users", []⟩ } =
        Clause.insertion .sqlite ⟨"users", []⟩ list false query ∧
      query = "SELECT t.id, mail AS email, COUNT(*) AS name" ++ " " ++ rest ∧ list = "id, email, name" := by
  have selected : Clause.select .sqlite false none none (Column.sqls .sqlite true [.named "id" (some "t") none,
      .named "mail" none (some "email"), .expression "COUNT(*)" (some "name")]) =
        "SELECT t.id, mail AS email, COUNT(*) AS name" := by decide +kernel
  obtain ⟨list, query, rest, sql, selects, lists⟩ := insertion_lists_projected_names .sqlite true
    { Statement.empty with
      columns := [.named "id" (some "t") none, .named "mail" none (some "email"), .expression "COUNT(*)" (some "name")]
      tables := [.named "t"]
      insert := some ⟨"users", []⟩ } rfl rfl (List.cons_ne_nil _ _)
  refine ⟨list, query, rest, sql, selects.trans (congrArg (· ++ " " ++ rest) selected), ?_⟩
  rcases lists with ⟨names, named, listed, _⟩ | ⟨⟨column, mem, unnamed⟩, _⟩
  · have same : ["id", "email", "name"] = names := List.map_injective_iff.2 (fun _ _ => Option.some.inj) named
    rw [listed, ← same]
    decide +kernel
  · simp only [List.mem_cons, List.not_mem_nil, or_false] at mem
    rcases mem with rfl | rfl | rfl <;> cases unnamed

-- A count has no name. What is known of the table takes the place of the projection, with one column more than
-- there are values.
theorem unnamed_column_takes_known_columns :
    Statement.sql .sqlite true
        { Statement.empty with
          columns := [.named "id" (some "t") none, .expression "COUNT(*)" none]
          tables := [.named "t"]
          insert := some ⟨"users", []⟩ } =
      "INSERT INTO users (id, name, email)\nSELECT t.id, COUNT(*) FROM t" ∧
    InsertTarget.knownColumns? "users" = some ["id", "name", "email"] ∧
    ¬∃ names : List String,
      [Column.named "id" (some "t") none, .expression "COUNT(*)" none].map Column.outputName? = names.map some := by
  refine ⟨by decide +kernel, by decide +kernel, ?_⟩
  rintro ⟨names, named⟩
  have unnamed : none ∈ names.map some := named ▸ by decide
  simp at unnamed

end PipeSql
