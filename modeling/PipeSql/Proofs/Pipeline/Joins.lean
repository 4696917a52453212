import Mathlib.Data.List.Find
import PipeSql.Proofs.Pipeline.Lowered
import PipeSql.Proofs.Script.Grammar

set_option autoImplicit false

namespace PipeSql

open Lowering

theorem Text.same_word_self (word : String) : sameWord word word = true :=
  beq_self_eq_true _

namespace Node

mutual

-- The table that the steps of a node start from.
def base? : Node → Option String
  | .table name => some name
  | .pipeline steps => stepsBase? steps

def stepsBase? : List (Step Node) → Option String
  | .source node :: _ => base? node
  | _ => none

end

mutual

-- The joins of a node, each with the table that it brings in, in the order in which they are added to a statement.
def joins : Node → List (Table × Join)
  | .table _ => []
  | .pipeline steps => stepsJoins steps

def stepsJoins : List (Step Node) → List (Table × Join)
  | [] => []
  | step :: rest => stepJoins step ++ stepsJoins rest

def stepJoins : Step Node → List (Table × Join)
  | .source node => joins node
  | .join joined relation => [(joined, relation)]
  | _ => []

end

end Node

namespace Clause

-- A join as it would be written for itself.
def ownJoin (dialect : Dialect) (entry : Table × Join) : String :=
  let condition :=
    match entry.2.condition with
    | some condition => " ON " ++ dialect.respell condition
    | none => ""
  " " ++ Join.keywords entry.2.joinType ++ " " ++ entry.1.sql ++ condition

-- A table with the first join to a table of its name.
def leading (entries : List (Table × Join)) (entry : Table × Join) : Table × Join :=
  match entries.find? fun other => Text.sameWord other.1.name entry.1.name with
  | some first => (entry.1, first.2)
  | none => entry

theorem joined_leading (dialect : Dialect) (entries : List (Table × Join))
    (aligned : ∀ entry ∈ entries, entry.2.right = entry.1.name) (entry : Table × Join) (member : entry ∈ entries) :
    joined dialect (entries.map Prod.snd) entry.1 = ownJoin dialect (leading entries entry) := by
  have named : Join.find? (entries.map Prod.snd) entry.1.name =
      (entries.find? fun other => Text.sameWord other.1.name entry.1.name).map Prod.snd := by
    rw [Join.find?, List.find?_map]
    refine congrArg (Option.map Prod.snd) (List.find?_congr fun other listed => ?_)
    rw [Function.comp_apply, aligned other listed]
  unfold joined leading
  rw [named]
  cases found : entries.find? fun other => Text.sameWord other.1.name entry.1.name with
  | none =>
    have unlike := List.find?_eq_none.1 found entry member
    exact absurd (Text.same_word_self entry.1.name) unlike
  | some first =>
    cases condition : first.2.condition <;>
      simp only [Option.map_some, Option.getD_some, Option.bind_some, ownJoin, condition]

theorem leading_own (dialect : Dialect) (entries : List (Table × Join))
    (agree : ∀ entry ∈ entries, ∀ other ∈ entries, Text.sameWord other.1.name entry.1.name = true →
      other.2.condition = entry.2.condition ∧ other.2.joinType = entry.2.joinType)
    (entry : Table × Join) (member : entry ∈ entries) :
    ownJoin dialect (leading entries entry) = ownJoin dialect entry := by
  unfold leading
  cases found : entries.find? fun other => Text.sameWord other.1.name entry.1.name with
  | none => rfl
  | some first =>
    have named : Text.sameWord first.1.name entry.1.name = true := by
      simpa only using List.find?_some found
    have alike := agree entry member first (List.mem_of_find?_eq_some found) named
    simp only [ownJoin, alike.1, alike.2]

end Clause

namespace Node

theorem add_steps_joined {current : Option String} {steps : List (Step Node)} (chain : Stage.Chain current steps)
    (statement : Statement) :
    (addSteps statement steps).tables = statement.tables ++ (stepsJoins steps).map Prod.fst ∧
      (addSteps statement steps).joins = statement.joins ++ (stepsJoins steps).map Prod.snd ∧
      ∀ entry ∈ stepsJoins steps, entry.2.right = entry.1.name := by
  induction chain generalizing statement with
  | nil current => simp [addSteps, stepsJoins]
  | @cons current step rest first others ih =>
    obtain ⟨tables, joins, aligned⟩ := ih (addStep statement step)
    rw [addSteps, tables, joins]
    cases first with
    | join table condition joinType =>
      refine ⟨?_, ?_, ?_⟩
      · simp [addStep, Step.apply, Statement.addJoin, stepsJoins, stepJoins]
      · simp [addStep, Step.apply, Statement.addJoin, stepsJoins, stepJoins]
      · intro entry member
        rw [stepsJoins] at member
        rcases List.mem_append.1 member with member | member
        · rw [List.mem_singleton.1 member]
        · exact aligned entry member
    | _ => exact ⟨rfl, rfl, aligned⟩

theorem add_to_joined {node : Node} (lowered : node.Lowered) :
    ∃ base, node.base? = some base ∧ (∀ entry ∈ node.joins, entry.2.right = entry.1.name) ∧
      node.statement.tables = .named base :: node.joins.map Prod.fst ∧
      node.statement.joins = node.joins.map Prod.snd := by
  induction lowered with
  | table name =>
    refine ⟨name, rfl, ?_, rfl, rfl⟩
    intro entry member
    cases member
  | @pipeline source steps _ chain ih =>
    obtain ⟨base, start, before, tables, joins⟩ := ih
    obtain ⟨moreTables, moreJoins, behind⟩ := add_steps_joined chain source.statement
    refine ⟨base, start, ?_, ?_, ?_⟩
    · intro entry member
      rcases List.mem_append.1 member with member | member
      · exact before entry member
      · exact behind entry member
    · change (addSteps source.statement steps).tables = .named base :: (source.joins ++ stepsJoins steps).map Prod.fst
      rw [moreTables, tables, List.map_append, List.cons_append]
    · change (addSteps source.statement steps).joins = (source.joins ++ stepsJoins steps).map Prod.snd
      rw [moreJoins, joins, List.map_append]

end Node

-- Each join is written with its own table, but with the type and the condition of the first join to a table of that
-- name. They are its own if all joins to one table agree in them.
theorem joins_written_by_table (queries dialect : Dialect) (script : Script) (plan : Plan)
    (planned : Plan.ofScript queries script = .ok plan) :
    ∃ base, plan.root.base? = some base ∧
      Clause.fromTables dialect plan.statement.joins plan.statement.tables = "FROM " ++ base ++
        Text.joinWith "" (plan.root.joins.map fun entry => Clause.ownJoin dialect (Clause.leading plan.root.joins entry)) ∧
      ((∀ entry ∈ plan.root.joins, ∀ other ∈ plan.root.joins, Text.sameWord other.1.name entry.1.name = true →
          other.2.condition = entry.2.condition ∧ other.2.joinType = entry.2.joinType) →
        Clause.fromTables dialect plan.statement.joins plan.statement.tables = "FROM " ++ base ++
          Text.joinWith "" (plan.root.joins.map (Clause.ownJoin dialect))) := by
  obtain ⟨base, start, aligned, tables, joins⟩ := Node.add_to_joined (Plan.root_lowered planned)
  obtain ⟨declared, same⟩ := Plan.declared_eq plan.parameters plan.root.statement
  have written : Clause.fromTables dialect plan.statement.joins plan.statement.tables = "FROM " ++ base ++
      Text.joinWith "" (plan.root.joins.map fun entry => Clause.ownJoin dialect (Clause.leading plan.root.joins entry)) := by
    rw [Plan.statement, same]
    dsimp only
    rw [tables, joins, Clause.fromTables, List.map_map]
    refine congrArg (fun texts => "FROM " ++ base ++ Text.joinWith "" texts) (List.map_congr_left ?_)
    exact fun entry member => Clause.joined_leading dialect plan.root.joins aligned entry member
  refine ⟨base, start, written, fun agree => ?_⟩
  rw [written]
  refine congrArg (fun texts => "FROM " ++ base ++ Text.joinWith "" texts) (List.map_congr_left ?_)
  exact fun entry member => Clause.leading_own dialect plan.root.joins agree entry member

theorem bound_joins_written_by_table :
    ∃ script plan, Script.read "let p=t|>join(b as x,on=x.i) p|>left_join(c,on=c.i)" false = .ok script ∧
      Plan.ofScript .sqlite script = .ok plan ∧
      Clause.fromTables .postgresql plan.statement.joins plan.statement.tables =
        "FROM t INNER JOIN b x ON x.i LEFT JOIN c ON c.i" ∧
      ∃ base, plan.root.base? = some base ∧
        Clause.fromTables .postgresql plan.statement.joins plan.statement.tables = "FROM " ++ base ++
          Text.joinWith "" (plan.root.joins.map (Clause.ownJoin .postgresql)) := by
  have tokens : tokenize "let p=t|>join(b as x,on=x.i) p|>left_join(c,on=c.i)" = .ok [⟨.keyword .let, ⟨0, 3⟩⟩,
      ⟨.ident "p", ⟨4, 5⟩⟩, ⟨.symbol .eq, ⟨5, 6⟩⟩, ⟨.ident "t", ⟨6, 7⟩⟩, ⟨.symbol .pipe, ⟨7, 9⟩⟩,
      ⟨.ident "join", ⟨9, 13⟩⟩, ⟨.symbol .leftParen, ⟨13, 14⟩⟩, ⟨.ident "b", ⟨14, 15⟩⟩, ⟨.keyword .as, ⟨16, 18⟩⟩,
      ⟨.ident "x", ⟨19, 20⟩⟩, ⟨.symbol .comma, ⟨20, 21⟩⟩, ⟨.keyword .on, ⟨21, 23⟩⟩, ⟨.symbol .eq, ⟨23, 24⟩⟩,
      ⟨.qualified ["x", "i"], ⟨24, 27⟩⟩, ⟨.symbol .rightParen, ⟨27, 28⟩⟩, ⟨.ident "p", ⟨29, 30⟩⟩,
      ⟨.symbol .pipe, ⟨30, 32⟩⟩, ⟨.ident "left_join", ⟨32, 41⟩⟩, ⟨.symbol .leftParen, ⟨41, 42⟩⟩,
      ⟨.ident "c", ⟨42, 43⟩⟩, ⟨.symbol .comma, ⟨43, 44⟩⟩, ⟨.keyword .on, ⟨44, 46⟩⟩, ⟨.symbol .eq, ⟨46, 47⟩⟩,
      ⟨.qualified ["c", "i"], ⟨47, 50⟩⟩, ⟨.symbol .rightParen, ⟨50, 51⟩⟩] := by decide +kernel
  have accepted : Script.read "let p=t|>join(b as x,on=x.i) p|>left_join(c,on=c.i)" false = .ok
      ⟨.bind "p" ⟨4, 5⟩ ⟨.ident ⟨6, 7⟩ "t", [.call ⟨9, 28⟩ ⟨"join", ⟨9, 13⟩, false⟩
        [.aliased ⟨14, 20⟩ (.ident ⟨14, 15⟩ "b") "x", .named ⟨21, 27⟩ "on" (.qualified ⟨24, 27⟩ ["x", "i"])]]⟩,
        [.query ⟨.ident ⟨29, 30⟩ "p", [.call ⟨32, 51⟩ ⟨"left_join", ⟨32, 41⟩, false⟩
          [.ident ⟨42, 43⟩ "c", .named ⟨44, 50⟩ "on" (.qualified ⟨47, 50⟩ ["c", "i"])]]⟩]⟩ :=
    Script.read_of_stages tokens (by set_option maxRecDepth 4000 in rfl)
  have written := fun script (_ : Script.read "let p=t|>join(b as x,on=x.i) p|>left_join(c,on=c.i)" false = .ok script) =>
    joins_written_by_table .sqlite .postgresql script
  refine ⟨_, _, accepted, rfl, by decide +kernel, ?_⟩
  exact (written _ accepted _ rfl).imp fun _ clause => ⟨clause.1, clause.2.2 (by decide +kernel)⟩

-- The second join of `b` keeps its alias, but neither its type nor its condition.
theorem repeated_table_takes_first_join :
    ∃ script plan, Script.read "a |> join(b as x, on = a.id = x.a) |> left_join(b as y, on = a.id = y.a)" false =
        .ok script ∧
      Plan.ofScript .sqlite script = .ok plan ∧
      Clause.fromTables .sqlite plan.statement.joins plan.statement.tables =
        "FROM a INNER JOIN b x ON a.id = x.a INNER JOIN b y ON a.id = x.a" ∧
      "FROM a" ++ Text.joinWith "" (plan.root.joins.map (Clause.ownJoin .sqlite)) =
        "FROM a INNER JOIN b x ON a.id = x.a LEFT JOIN b y ON a.id = y.a" := by
  have tokens : tokenize "a |> join(b as x, on = a.id = x.a) |> left_join(b as y, on = a.id = y.a)" = .ok
      [⟨.ident "a", ⟨0, 1⟩⟩, ⟨.symbol .pipe, ⟨2, 4⟩⟩, ⟨.ident "join", ⟨5, 9⟩⟩, ⟨.symbol .leftParen, ⟨9, 10⟩⟩,
      ⟨.ident "b", ⟨10, 11⟩⟩, ⟨.keyword .as, ⟨12, 14⟩⟩, ⟨.ident "x", ⟨15, 16⟩⟩, ⟨.symbol .comma, ⟨16, 17⟩⟩,
      ⟨.keyword .on, ⟨18, 20⟩⟩, ⟨.symbol .eq, ⟨21, 22⟩⟩, ⟨.qualified ["a", "id"], ⟨23, 27⟩⟩, ⟨.symbol .eq, ⟨28, 29⟩⟩,
      ⟨.qualified ["x", "a"], ⟨30, 33⟩⟩, ⟨.symbol .rightParen, ⟨33, 34⟩⟩, ⟨.symbol .pipe, ⟨35, 37⟩⟩,
      ⟨.ident "left_join", ⟨38, 47⟩⟩, ⟨.symbol .leftParen, ⟨47, 48⟩⟩, ⟨.ident "b", ⟨48, 49⟩⟩, ⟨.keyword .as, ⟨50, 52⟩⟩,
      ⟨.ident "y", ⟨53, 54⟩⟩, ⟨.symbol .comma, ⟨54, 55⟩⟩, ⟨.keyword .on, ⟨56, 58⟩⟩, ⟨.symbol .eq, ⟨59, 60⟩⟩,
      ⟨.qualified ["a", "id"], ⟨61, 65⟩⟩, ⟨.symbol .eq, ⟨66, 67⟩⟩, ⟨.qualified ["y", "a"], ⟨68, 71⟩⟩,
      ⟨.symbol .rightParen, ⟨71, 72⟩⟩] := by decide +kernel
  have accepted : Script.read "a |> join(b as x, on = a.id = x.a) |> left_join(b as y, on = a.id = y.a)" false = .ok
      ⟨.query ⟨.ident ⟨0, 1⟩ "a", [.call ⟨5, 34⟩ ⟨"join", ⟨5, 9⟩, false⟩
        [.aliased ⟨10, 16⟩ (.ident ⟨10, 11⟩ "b") "x", .named ⟨18, 33⟩ "on"
          (.binary ⟨23, 33⟩ .eq (.qualified ⟨23, 27⟩ ["a", "id"]) (.qualified ⟨30, 33⟩ ["x", "a"]))],
        .call ⟨38, 72⟩ ⟨"left_join", ⟨38, 47⟩, false⟩
        [.aliased ⟨48, 54⟩ (.ident ⟨48, 49⟩ "b") "y", .named ⟨56, 71⟩ "on"
          (.binary ⟨61, 71⟩ .eq (.qualified ⟨61, 65⟩ ["a", "id"]) (.qualified ⟨68, 71⟩ ["y", "a"]))]]⟩, []⟩ :=
    Script.read_of_stages tokens (by set_option maxRecDepth 4000 in rfl)
  exact ⟨_, _, accepted, rfl, by decide +kernel, by decide +kernel⟩

end PipeSql
