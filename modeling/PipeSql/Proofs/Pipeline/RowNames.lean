import PipeSql.Compile
import PipeSql.Proofs.Pipeline.Conditions
import PipeSql.Proofs.Pipeline.Revised

set_option autoImplicit false

namespace PipeSql

open Lowering

def Revision.rowless : Revision where
  rows _ := []
  name := resolved
  operation := id
  rows_append _ _ := rfl
  name_resolved _ _ := resolved_nil _
  operation_lowered _ _ _ := rfl

namespace Term

section

variable (revision : Revision) (rows : List String)

theorem revised_option_list (term : Option Term) :
    (revisedOption revision rows term).toList = term.toList.map (revised revision false rows) := by
  cases term <;> rfl

def revisedStage (stage : Term) : Term :=
  match stage with
  | .call span head args =>
    revision.operation (.call span head (revisedAll revision (Operation.keepsNamesOf head.name) rows args))
  | .windowed span head args partitionBy orderBy =>
    revision.operation (.windowed span head (revisedAll revision (Operation.keepsNamesOf head.name) rows args)
      (revisedAll revision false rows partitionBy) (revisedAll revision false rows orderBy))
  | stage => stage.revised revision false rows

theorem revised_stages_map (stages : List Term) :
    revisedStages revision rows stages = stages.map (revisedStage revision rows) := by
  induction stages with
  | nil => rfl
  | cons stage rest ih =>
    rw [List.map_cons, ← ih]
    cases stage <;> rfl

-- The parts of a revised term are revised parts of the term.
theorem revised_part {kept : Bool} {term part : Term} (member : part ∈ (term.revised revision kept rows).parts) :
    ∃ inner ∈ term.parts, (∃ kept rows, part = inner.revised revision kept rows) ∨
      part = inner.revisedStage revision rows := by
  have mapped (below : Bool) (scope : List String) {inner outer : List Term}
      (same : outer = inner.map (revised revision below scope)) (member : part ∈ outer) :
      ∃ term ∈ inner, (∃ kept rows, part = term.revised revision kept rows) ∨
        part = term.revisedStage revision rows := by
    rw [same] at member
    obtain ⟨term, present, rfl⟩ := List.mem_map.1 member
    exact ⟨term, present, .inl ⟨below, scope, rfl⟩⟩
  have piped {source : Term} {stages : List Term}
      (member : part ∈ source.revised revision false rows :: revisedStages revision rows stages) :
      ∃ term ∈ source :: stages, (∃ kept rows, part = term.revised revision kept rows) ∨
        part = term.revisedStage revision rows := by
    rw [revised_stages_map] at member
    rcases List.mem_cons.1 member with rfl | member
    · exact ⟨source, .head _, .inl ⟨false, rows, rfl⟩⟩
    · obtain ⟨stage, present, rfl⟩ := List.mem_map.1 member
      exact ⟨stage, .tail _ present, .inr rfl⟩
  cases term with
  | ident | qualified | wildcard | param | literal => cases member
  | call span head args => exact mapped false rows (revised_all_map revision rows false args) member
  | windowed span head args partitionBy orderBy =>
    refine mapped false rows ?_ member
    simp only [revised, parts, revised_all_map, List.map_append]
  | cases span operand branches otherwise =>
    refine mapped false rows ?_ member
    simp only [revised, parts, revised_option_list, revised_branches_map, List.map_append, List.map_map,
      Function.comp_def]
  | inList span operand items negated =>
    refine mapped false rows ?_ member
    simp only [revised, parts, revised_all_map, List.map_cons]
  | «exists» span source stages => exact piped member
  | pipe span source stages => exact piped member
  | lambda span params body => exact mapped false (rows ++ params) rfl member
  | aliased span inner label => exact mapped kept rows rfl member
  | _ => exact mapped false rows rfl member

end

-- No lambda in the term names a row.
def Rowless (term : Term) : Prop :=
  ∀ span rows body, (lambda span rows body).Within term → rows = []

theorem rowless_of_parts {term : Term} (top : ∀ span rows body, term = lambda span rows body → rows = [])
    (each : ∀ part ∈ term.parts, part.Rowless) : term.Rowless := by
  intro span rows body within
  cases within with
  | self => exact top span rows body rfl
  | deeper part _ member within => exact each part member span rows body within

theorem revised_rowless (term : Term) (rows : List String) :
    (∀ kept, (term.revised .rowless kept rows).Rowless) ∧ (term.revisedStage .rowless rows).Rowless := by
  induction term using parts_induction generalizing rows with
  | step term ih =>
    have plain (kept : Bool) : (term.revised .rowless kept rows).Rowless := by
      apply rowless_of_parts
      · intro span params body same
        cases term <;> cases same
        rfl
      · intro part member
        obtain ⟨inner, present, ⟨kept, rows, rfl⟩ | rfl⟩ := revised_part .rowless rows member
        · exact (ih inner present rows).1 kept
        · exact (ih inner present rows).2
    have listed (kept : Bool) (terms : List Term) (sub : ∀ inner ∈ terms, inner ∈ term.parts) :
        ∀ part ∈ revisedAll .rowless kept rows terms, part.Rowless := by
      intro part member
      rw [revised_all_map] at member
      obtain ⟨inner, present, rfl⟩ := List.mem_map.1 member
      exact (ih inner (sub inner present) rows).1 kept
    refine ⟨plain, ?_⟩
    cases term with
    | call span head args =>
      refine rowless_of_parts (fun _ _ _ same => ?_) (listed _ args fun _ present => present)
      cases same
    | windowed span head args partitionBy orderBy =>
      refine rowless_of_parts (fun _ _ _ same => ?_) fun part member => ?_
      · cases same
      · rcases List.mem_append.1 member with member | member
        · rcases List.mem_append.1 member with member | member
          · exact listed _ args (fun inner present => by simp [parts, present]) part member
          · exact listed _ partitionBy (fun inner present => by simp [parts, present]) part member
        · exact listed _ orderBy (fun inner present => by simp [parts, present]) part member
    | _ => exact plain false

end Term

theorem Script.revised_rowless (script : Script) (span : Span) (rows : List String) (body : Term)
    (contained : (script.revised .rowless).Contains (.lambda span rows body)) : rows = [] := by
  obtain ⟨statement, member, top, present, within⟩ := contained
  obtain ⟨original, -, rfl⟩ : ∃ original ∈ script.statements, statement = original.revised .rowless := by
    rcases List.mem_cons.1 member with rfl | member
    · exact ⟨script.first, .head _, rfl⟩
    · obtain ⟨original, listed, rfl⟩ := List.mem_map.1 member
      exact ⟨original, .tail _ listed, rfl⟩
  rw [Plan.revised_pipe] at present
  rcases List.mem_cons.1 present with rfl | present
  · exact (Term.revised_rowless original.pipe.source []).1 false span rows body within
  · rw [Pipe.revised, Term.revised_stages_map] at present
    obtain ⟨stage, -, rfl⟩ := List.mem_map.1 present
    exact (Term.revised_rowless stage []).2 span rows body within

theorem Term.named_column_sql (dialect : Dialect) (guess : Bool) (parts : List String) (filled : parts ≠ []) :
    (namedColumn parts).sql dialect guess = Text.joinWith "." parts := by
  rw [← named_column_operand dialect parts filled ""]
  unfold namedColumn
  match reversed : parts.reverse with
  | [] => exact absurd (List.reverse_eq_nil_iff.1 reversed) filled
  | [_] => rfl
  | _ :: _ :: _ => rfl

theorem row_names_are_left_out (dialect : Dialect) (script : Script) :
    Plan.ofScript dialect script = Plan.ofScript dialect (script.revised .rowless) ∧
      (∀ span rows body, (script.revised .rowless).Contains (.lambda span rows body) → rows = []) ∧
      (∀ (queryText : QueryText) (span : Span) (rows parts : List String),
        within rows ((Term.qualified span parts).text queryText) = pure (Text.joinWith "." (resolved rows parts)) ∧
        within rows ((Term.qualified span parts).operandColumn queryText) =
          pure (Term.namedColumn (resolved rows parts)) ∧
        within rows ((Term.qualified span parts).column queryText) = pure (Term.namedColumn parts)) ∧
      ∀ guess first others,
        (Term.namedColumn (first :: others)).sql dialect guess = Text.joinWith "." (first :: others) := by
  refine ⟨(Plan.of_script_revised .rowless dialect script).symm, script.revised_rowless, ?_, ?_⟩
  · intro queryText span rows parts
    exact ⟨within_stripped rows parts _, within_stripped rows parts _, rfl⟩
  · intro guess first others
    exact Term.named_column_sql dialect guess _ (List.cons_ne_nil first others)

theorem nested_row_names_are_left_out :
    ∃ script rows body, Plan.ofScript .sqlite ⟨.query ⟨.ident ⟨0, 5⟩ "users", [.call ⟨9, 83⟩ ⟨"filter", ⟨9, 15⟩, false⟩
        [.lambda ⟨16, 82⟩ ["u"] (.exists ⟨25, 82⟩ (.ident ⟨32, 38⟩ "orders") [.call ⟨42, 81⟩ ⟨"filter", ⟨42, 48⟩, false⟩
          [.lambda ⟨49, 80⟩ ["o"] (.binary ⟨58, 80⟩ .eq (.qualified ⟨58, 64⟩ ["O", "user"])
            (.qualified ⟨67, 80⟩ ["u", "users", "id"]))]])]]⟩, []⟩ = Plan.ofScript .sqlite script ∧
      script = ⟨.query ⟨.ident ⟨0, 5⟩ "users", [.call ⟨9, 83⟩ ⟨"filter", ⟨9, 15⟩, false⟩
        [.lambda ⟨16, 82⟩ [] (.exists ⟨25, 82⟩ (.ident ⟨32, 38⟩ "orders") [.call ⟨42, 81⟩ ⟨"filter", ⟨42, 48⟩, false⟩
          [.lambda ⟨49, 80⟩ [] (.binary ⟨58, 80⟩ .eq (.qualified ⟨58, 64⟩ ["user"])
            (.qualified ⟨67, 80⟩ ["users", "id"]))]])]]⟩, []⟩ ∧
      script.Contains (.lambda ⟨16, 82⟩ rows body) ∧ rows = [] := by
  have contained : Script.Contains ⟨.query ⟨.ident ⟨0, 5⟩ "users", [.call ⟨9, 83⟩ ⟨"filter", ⟨9, 15⟩, false⟩
        [.lambda ⟨16, 82⟩ [] (.exists ⟨25, 82⟩ (.ident ⟨32, 38⟩ "orders") [.call ⟨42, 81⟩ ⟨"filter", ⟨42, 48⟩, false⟩
          [.lambda ⟨49, 80⟩ [] (.binary ⟨58, 80⟩ .eq (.qualified ⟨58, 64⟩ ["user"])
            (.qualified ⟨67, 80⟩ ["users", "id"]))]])]]⟩, []⟩ _ :=
    ⟨_, .head _, _, .tail _ (.head _), .deeper _ _ _ (.head _) (.self _)⟩
  obtain ⟨same, rowless, -, -⟩ := row_names_are_left_out .sqlite ⟨.query ⟨.ident ⟨0, 5⟩ "users",
    [.call ⟨9, 83⟩ ⟨"filter", ⟨9, 15⟩, false⟩ [.lambda ⟨16, 82⟩ ["u"] (.exists ⟨25, 82⟩ (.ident ⟨32, 38⟩ "orders")
      [.call ⟨42, 81⟩ ⟨"filter", ⟨42, 48⟩, false⟩ [.lambda ⟨49, 80⟩ ["o"] (.binary ⟨58, 80⟩ .eq
        (.qualified ⟨58, 64⟩ ["O", "user"]) (.qualified ⟨67, 80⟩ ["u", "users", "id"]))]])]]⟩, []⟩
  exact ⟨_, _, _, same, rfl, contained, rowless _ _ _ contained⟩

theorem selected_row_name_is_kept :
    (compile ⟨.postgresql, .sqlite, false, true⟩ "users |> filter(fn(u) => exists(orders |> select(u.users.id)))"
      .sqlite).map CompiledQuery.sql = .ok "SELECT * FROM users WHERE EXISTS (SELECT u.users.id FROM orders)" := by
  have tokens : tokenize "users |> filter(fn(u) => exists(orders |> select(u.users.id)))" = .ok
      [⟨.ident "users", ⟨0, 5⟩⟩, ⟨.symbol .pipe, ⟨6, 8⟩⟩, ⟨.ident "filter", ⟨9, 15⟩⟩, ⟨.symbol .leftParen, ⟨15, 16⟩⟩,
        ⟨.keyword .fn, ⟨16, 18⟩⟩, ⟨.symbol .leftParen, ⟨18, 19⟩⟩, ⟨.ident "u", ⟨19, 20⟩⟩,
        ⟨.symbol .rightParen, ⟨20, 21⟩⟩, ⟨.symbol .arrow, ⟨22, 24⟩⟩, ⟨.keyword .exists, ⟨25, 31⟩⟩,
        ⟨.symbol .leftParen, ⟨31, 32⟩⟩, ⟨.ident "orders", ⟨32, 38⟩⟩, ⟨.symbol .pipe, ⟨39, 41⟩⟩,
        ⟨.ident "select", ⟨42, 48⟩⟩, ⟨.symbol .leftParen, ⟨48, 49⟩⟩, ⟨.qualified ["u", "users", "id"], ⟨49, 59⟩⟩,
        ⟨.symbol .rightParen, ⟨59, 60⟩⟩, ⟨.symbol .rightParen, ⟨60, 61⟩⟩, ⟨.symbol .rightParen, ⟨61, 62⟩⟩] := by
    decide +kernel
  have accepted : Script.read "users |> filter(fn(u) => exists(orders |> select(u.users.id)))" false =
      .ok ⟨.query ⟨.ident ⟨0, 5⟩ "users", [.call ⟨9, 62⟩ ⟨"filter", ⟨9, 15⟩, false⟩ [.lambda ⟨16, 61⟩ ["u"]
        (.exists ⟨25, 61⟩ (.ident ⟨32, 38⟩ "orders") [.call ⟨42, 60⟩ ⟨"select", ⟨42, 48⟩, false⟩
          [.qualified ⟨49, 59⟩ ["u", "users", "id"]]])]]⟩, []⟩ :=
    Script.read_of_stages tokens (by set_option maxRecDepth 4000 in rfl)
  unfold compile plan
  rw [accepted]
  decide +kernel

end PipeSql
