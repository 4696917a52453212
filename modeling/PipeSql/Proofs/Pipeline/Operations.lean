import PipeSql.Compile
import PipeSql.Proofs.Pipeline.Revised
import PipeSql.Proofs.Script.Grammar

set_option autoImplicit false

namespace PipeSql

def Operation.takesTable : Operation → Bool
  | .innerJoin | .leftJoin | .crossJoin | .insert => true
  | _ => false

namespace Stage

-- The arguments with names, and the first one without.
def oneUnnamed : List Term → List Term
  | [] => []
  | arg :: rest => if arg.isNamed then arg :: oneUnnamed rest else arg :: rest.filter Term.isNamed

def usedArgs (name : String) (args : List Term) : List Term :=
  if (Operation.ofName? name).any Operation.takesTable then oneUnnamed args else args

theorem find_one_unnamed (args : List Term) :
    ((oneUnnamed args).find? fun arg => !arg.isNamed) = args.find? fun arg => !arg.isNamed := by
  induction args with
  | nil => rfl
  | cons arg rest ih =>
    by_cases given : arg.isNamed = true <;> simp [oneUnnamed, given, ih]

theorem one_unnamed_length (args : List Term) : ((oneUnnamed args).filter fun arg => !arg.isNamed).length ≤ 1 := by
  induction args with
  | nil => exact Nat.zero_le 1
  | cons arg rest ih =>
    by_cases given : arg.isNamed = true
    · simpa [oneUnnamed, given] using ih
    · have others : (rest.filter Term.isNamed).filter (fun arg => !arg.isNamed) = [] := by
        rw [List.filter_eq_nil_iff]
        intro other member
        simp [(List.mem_filter.1 member).2]
      simp [oneUnnamed, given, others]

theorem named_cons_unnamed (name : String) {arg : Term} (rest : List Term) (unnamed : arg.isNamed = false) :
    named? name (arg :: rest) = named? name rest := by
  cases arg with
  | named => cases unnamed
  | _ => rfl

theorem named_filter (name : String) (args : List Term) :
    named? name (args.filter Term.isNamed) = named? name args := by
  induction args with
  | nil => rfl
  | cons arg rest ih =>
    cases arg with
    | named span given value =>
      rw [List.filter_cons_of_pos rfl]
      simp only [named?, ih]
    | _ => exact ih

theorem named_one_unnamed (name : String) (args : List Term) : named? name (oneUnnamed args) = named? name args := by
  induction args with
  | nil => rfl
  | cons arg rest ih =>
    rw [oneUnnamed]
    split
    · cases arg with
      | named span given value => simp only [named?, ih]
      | _ => exact ih
    · rename_i unnamed
      have given := Bool.eq_false_iff.2 unnamed
      rw [named_cons_unnamed name _ given, named_cons_unnamed name _ given, named_filter]

theorem table_one_unnamed (span nameSpan : Span) (name : String) (args : List Term) :
    table ⟨span, name, nameSpan, oneUnnamed args⟩ = table ⟨span, name, nameSpan, args⟩ := by
  simp only [table, find_one_unnamed]

theorem step_used (queryText : QueryText) (current : Option String) (span nameSpan : Span) (name : String)
    (args : List Term) :
    step queryText current ⟨span, name, nameSpan, usedArgs name args⟩ =
      step queryText current ⟨span, name, nameSpan, args⟩ := by
  unfold step usedArgs
  dsimp only
  cases Operation.ofName? name with
  | none => rfl
  | some operation =>
    cases operation with
    | innerJoin | leftJoin | crossJoin =>
      simp only [Option.any_some, Operation.takesTable, if_true, join, table_one_unnamed, named_one_unnamed]
    | insert => simp only [Option.any_some, Operation.takesTable, if_true, table_one_unnamed]
    | _ => rfl

end Stage

def CallHead.plain (head : CallHead) : CallHead :=
  { head with distinct := false }

-- A stage without DISTINCT, its window and the arguments that its operation does not use.
def Term.bareStage : Term → Term
  | .call span head args => .call span head.plain (Stage.usedArgs head.name args)
  | .windowed span head args _ _ => .call span head.plain (Stage.usedArgs head.name args)
  | other => other

def Term.IsBareStage : Term → Prop
  | .call _ head args => head.distinct = false ∧ ((Operation.ofName? head.name).any Operation.takesTable = true →
      (args.filter fun arg => !arg.isNamed).length ≤ 1)
  | .windowed .. => False
  | _ => True

theorem Term.bare_stage_is_bare (term : Term) : term.bareStage.IsBareStage := by
  have used (head : CallHead) (args : List Term)
      (table : (Operation.ofName? head.name).any Operation.takesTable = true) :
      ((Stage.usedArgs head.name args).filter fun arg => !arg.isNamed).length ≤ 1 := by
    rw [Stage.usedArgs, if_pos table]
    exact Stage.one_unnamed_length args
  cases term with
  | call span head args => exact ⟨rfl, used head args⟩
  | windowed span head args partitionBy orderBy => exact ⟨rfl, used head args⟩
  | _ => trivial

theorem Stage.bare_lowered (queryText : QueryText) (current : Option String) (term : Term) :
    lowered queryText current term.bareStage = lowered queryText current term := by
  cases term with
  | call span head args => exact step_used queryText current span head.nameSpan head.name args
  | windowed span head args partitionBy orderBy => exact step_used queryText current span head.nameSpan head.name args
  | _ => rfl

def Revision.bareStages : Revision where
  rows := id
  name _ parts := parts
  operation := Term.bareStage
  rows_append _ _ := rfl
  name_resolved _ _ := rfl
  operation_lowered := Stage.bare_lowered

theorem bare_stages_have_the_same_steps (dialect : Dialect) (script : Script) :
    (∀ stage, (Term.bareStage stage).IsBareStage ∧ ∀ queryText current,
      Stage.lowered queryText current (Term.bareStage stage) = Stage.lowered queryText current stage) ∧
      Plan.ofScript dialect (script.revised .bareStages) = Plan.ofScript dialect script := by
  refine ⟨fun stage => ⟨stage.bare_stage_is_bare, fun queryText current => ?_⟩,
    Plan.of_script_revised .bareStages dialect script⟩
  exact Stage.bare_lowered queryText current stage

theorem distinct_selection_is_plain :
    (compile ⟨.postgresql, .sqlite, false, true⟩ "t |> select(distinct t.a)" .sqlite).map CompiledQuery.sql =
        .ok "SELECT t.a FROM t" ∧
      (compile ⟨.postgresql, .sqlite, false, true⟩ "t |> select(t.a)" .sqlite).map CompiledQuery.sql =
        .ok "SELECT t.a FROM t" := by
  have marked : tokenize "t |> select(distinct t.a)" = .ok [⟨.ident "t", ⟨0, 1⟩⟩, ⟨.symbol .pipe, ⟨2, 4⟩⟩,
      ⟨.ident "select", ⟨5, 11⟩⟩, ⟨.symbol .leftParen, ⟨11, 12⟩⟩, ⟨.keyword .distinct, ⟨12, 20⟩⟩,
      ⟨.qualified ["t", "a"], ⟨21, 24⟩⟩, ⟨.symbol .rightParen, ⟨24, 25⟩⟩] := by decide +kernel
  have unmarked : tokenize "t |> select(t.a)" = .ok [⟨.ident "t", ⟨0, 1⟩⟩, ⟨.symbol .pipe, ⟨2, 4⟩⟩,
      ⟨.ident "select", ⟨5, 11⟩⟩, ⟨.symbol .leftParen, ⟨11, 12⟩⟩, ⟨.qualified ["t", "a"], ⟨12, 15⟩⟩,
      ⟨.symbol .rightParen, ⟨15, 16⟩⟩] := by decide +kernel
  have first : Script.read "t |> select(distinct t.a)" false = .ok ⟨.query ⟨.ident ⟨0, 1⟩ "t",
      [.call ⟨5, 25⟩ ⟨"select", ⟨5, 11⟩, true⟩ [.qualified ⟨21, 24⟩ ["t", "a"]]]⟩, []⟩ :=
    Script.read_of_stages marked (by set_option maxRecDepth 4000 in rfl)
  have second : Script.read "t |> select(t.a)" false = .ok ⟨.query ⟨.ident ⟨0, 1⟩ "t",
      [.call ⟨5, 16⟩ ⟨"select", ⟨5, 11⟩, false⟩ [.qualified ⟨12, 15⟩ ["t", "a"]]]⟩, []⟩ :=
    Script.read_of_stages unmarked (by set_option maxRecDepth 4000 in rfl)
  unfold compile plan
  rw [first, second]
  decide +kernel

end PipeSql
