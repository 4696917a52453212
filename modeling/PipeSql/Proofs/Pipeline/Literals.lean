import PipeSql.Compile
import PipeSql.Proofs.Pipeline.OfScript
import PipeSql.Proofs.Script.Grammar

set_option autoImplicit false

namespace PipeSql

open Lowering

-- Neither the contents of string literals nor the spans are left.
def Script.skeleton (script : Script) : Script :=
  script.mapped (fun _ => "") fun _ => ⟨0, 0⟩

theorem Script.mapped_well_formed (contents : String → String) (place : Span → Span) (script : Script) :
    (script.mapped contents place).WellFormed ↔ script.WellFormed := by
  have pipes : ∀ statement : ScriptStatement,
      (statement.mapped contents place).pipe.WellFormed ↔ statement.pipe.WellFormed := by
    intro statement
    have mapped : (statement.mapped contents place).pipe = statement.pipe.mapped contents place := by
      cases statement <;> rfl
    rw [mapped]
    simp only [Pipe.WellFormed, Pipe.mapped, Term.FormedAt, Term.mapped_level, Term.mapped_well_formed,
      Term.mapped_all, List.forall_mem_map]
  have statements : (script.mapped contents place).statements =
      script.statements.map (ScriptStatement.mapped contents place) := rfl
  rw [WellFormed, WellFormed, statements, List.forall_mem_map]
  exact forall₂_congr fun statement _ => pipes statement

namespace Plan

variable {likeness : Likeness} {place : Span → Span}

theorem statement_like {plan twin : Plan} (nodes : likeness.NodeLike plan.root twin.root) :
    likeness.StatementLike plan.statement twin.statement := by
  have like := nodes.adds _ _ Likeness.empty_like
  obtain ⟨declared, same⟩ := declared_eq plan.parameters plan.root.statement
  obtain ⟨known, alike⟩ := declared_eq twin.parameters twin.root.statement
  rw [Plan.statement, Plan.statement, same, alike]
  exact { like with }

theorem of_script_like (dialect : Dialect) (script : Script) (formed : script.WellFormed) :
    (∀ plan, ofScript dialect script = .ok plan →
      ∃ twin, ofScript dialect (script.mapped likeness.contents place) = .ok twin ∧
        likeness.StatementLike plan.statement twin.statement) ∧
    ∀ twin, ofScript dialect (script.mapped likeness.contents place) = .ok twin →
      ∃ plan, ofScript dialect script = .ok plan := by
  have coupled := @coupled_last_node likeness place script.first script.others formed ⟨dialect, [], []⟩ ⟨dialect, [], []⟩
    ⟨rfl, .nil, rfl⟩ [] []
  rw [of_script_eq, of_script_eq]
  change Agree likeness.NodeLike _ (lastNode (script.mapped likeness.contents place).first
    (script.mapped likeness.contents place).others ⟨dialect, [], []⟩ []) at coupled
  generalize lastNode script.first script.others ⟨dialect, [], []⟩ [] = left at coupled ⊢
  generalize lastNode _ _ ⟨dialect, [], []⟩ [] = right at coupled ⊢
  match left, right with
  | .ok (root, parameters), .ok (twin, known) =>
    refine ⟨?_, fun _ _ => ⟨_, rfl⟩⟩
    rintro _ ⟨⟩
    exact ⟨_, rfl, statement_like coupled⟩
  | .error _, .error _ => exact ⟨nofun, nofun⟩
  | .ok _, .error _ => exact coupled.elim
  | .error _, .ok _ => exact coupled.elim

end Plan

theorem Script.skeleton_like (dialect : Dialect) (script : Script) (formed : script.WellFormed) :
    (∀ plan, Plan.ofScript dialect script = .ok plan →
      ∃ bare, Plan.ofScript dialect script.skeleton = .ok bare ∧
        Likeness.blanked.StatementLike plan.statement bare.statement) ∧
    ∀ bare, Plan.ofScript dialect script.skeleton = .ok bare → ∃ plan, Plan.ofScript dialect script = .ok plan :=
  @Plan.of_script_like .blanked (fun _ => ⟨0, 0⟩) dialect script formed

theorem erased_write_like (dialect : Dialect) (guess : Bool) {left right : Statement}
    (like : Likeness.blanked.StatementLike left right) :
    (left.write dialect guess).map Text.eraseLiterals = (right.write dialect guess).map Text.eraseLiterals := by
  have texts := (Text.alike_hollow (Likeness.sql_like dialect guess like)).1
  unfold Statement.write
  rw [Likeness.writable_like like]
  split
  · simp only [Except.map, Text.eraseLiterals, texts]
  · rfl

theorem literals_stay_inside (source : String) (screened : Bool) (script other : Script)
    (accepted : Script.read source screened = .ok script) (same : script.skeleton = other.skeleton)
    (config : Config) (dialect : Dialect) :
    ((∃ plan, Plan.ofScript config.unionDialect script = .ok plan) ↔
      ∃ twin, Plan.ofScript config.unionDialect other = .ok twin) ∧
    ∀ plan twin, Plan.ofScript config.unionDialect script = .ok plan →
      Plan.ofScript config.unionDialect other = .ok twin →
      (plan.statement.write dialect config.guessColumns).map Text.eraseLiterals =
        (twin.statement.write dialect config.guessColumns).map Text.eraseLiterals := by
  have formed := Script.read_well_formed source screened script accepted
  have otherFormed : other.WellFormed := by
    have bare : other.skeleton.WellFormed := same ▸ (Script.mapped_well_formed _ _ script).2 formed
    exact (Script.mapped_well_formed _ _ other).1 bare
  obtain ⟨forth, back⟩ := script.skeleton_like config.unionDialect formed
  obtain ⟨otherForth, otherBack⟩ := other.skeleton_like config.unionDialect otherFormed
  rw [← same] at otherForth otherBack
  refine ⟨⟨?_, ?_⟩, ?_⟩
  · rintro ⟨plan, planned⟩
    obtain ⟨bare, lowered, _⟩ := forth plan planned
    exact otherBack bare lowered
  · rintro ⟨plan, planned⟩
    obtain ⟨bare, lowered, _⟩ := otherForth plan planned
    exact back bare lowered
  · intro plan twin planned twinned
    obtain ⟨bare, lowered, like⟩ := forth plan planned
    obtain ⟨stripped, again, otherLike⟩ := otherForth twin twinned
    obtain rfl : bare = stripped := Except.ok.inj (lowered.symm.trans again)
    rw [erased_write_like dialect config.guessColumns like, erased_write_like dialect config.guessColumns otherLike]

theorem injected_literal_stays_inside :
    ∃ script plan twin,
      Script.read "t|>filter(exists(u|>filter(a='x')))" false = .ok script ∧
      Plan.ofScript .postgresql script = .ok plan ∧
      Plan.ofScript .postgresql (script.mapped (fun _ => "') OR NOW() || ('--") id) = .ok twin ∧
      plan.statement.write .sqlserver true = .ok "SELECT * FROM t WHERE EXISTS (SELECT * FROM u WHERE a = 'x')" ∧
      twin.statement.write .sqlserver true =
        .ok "SELECT * FROM t WHERE EXISTS (SELECT * FROM u WHERE a = ''') OR NOW() || (''--')" ∧
      (plan.statement.write .sqlserver true).map Text.eraseLiterals =
        (twin.statement.write .sqlserver true).map Text.eraseLiterals := by
  have tokens : tokenize "t|>filter(exists(u|>filter(a='x')))" = .ok [⟨.ident "t", ⟨0, 1⟩⟩, ⟨.symbol .pipe, ⟨1, 3⟩⟩,
      ⟨.ident "filter", ⟨3, 9⟩⟩, ⟨.symbol .leftParen, ⟨9, 10⟩⟩, ⟨.keyword .exists, ⟨10, 16⟩⟩,
      ⟨.symbol .leftParen, ⟨16, 17⟩⟩, ⟨.ident "u", ⟨17, 18⟩⟩, ⟨.symbol .pipe, ⟨18, 20⟩⟩, ⟨.ident "filter", ⟨20, 26⟩⟩,
      ⟨.symbol .leftParen, ⟨26, 27⟩⟩, ⟨.ident "a", ⟨27, 28⟩⟩, ⟨.symbol .eq, ⟨28, 29⟩⟩, ⟨.str "x", ⟨29, 32⟩⟩,
      ⟨.symbol .rightParen, ⟨32, 33⟩⟩, ⟨.symbol .rightParen, ⟨33, 34⟩⟩, ⟨.symbol .rightParen, ⟨34, 35⟩⟩] := by
    decide +kernel
  have accepted : Script.read "t|>filter(exists(u|>filter(a='x')))" false = .ok ⟨.query ⟨.ident ⟨0, 1⟩ "t",
      [.call ⟨3, 35⟩ ⟨"filter", ⟨3, 9⟩, false⟩ [.exists ⟨10, 34⟩ (.ident ⟨17, 18⟩ "u")
        [.call ⟨20, 33⟩ ⟨"filter", ⟨20, 26⟩, false⟩ [.binary ⟨27, 32⟩ .eq (.ident ⟨27, 28⟩ "a")
          (.literal ⟨29, 32⟩ (.str "x"))]]]]⟩, []⟩ :=
    Script.read_of_stages tokens (by set_option maxRecDepth 4000 in rfl)
  obtain ⟨script, accepted, written, injected, same⟩ : ∃ script,
      Script.read "t|>filter(exists(u|>filter(a='x')))" false = .ok script ∧
      (Plan.ofScript .postgresql script).map (fun plan => plan.statement.write .sqlserver true) =
        .ok (.ok "SELECT * FROM t WHERE EXISTS (SELECT * FROM u WHERE a = 'x')") ∧
      (Plan.ofScript .postgresql (script.mapped (fun _ => "') OR NOW() || ('--") id)).map
          (fun plan => plan.statement.write .sqlserver true) =
        .ok (.ok "SELECT * FROM t WHERE EXISTS (SELECT * FROM u WHERE a = ''') OR NOW() || (''--')") ∧
      script.skeleton = (script.mapped (fun _ => "') OR NOW() || ('--") id).skeleton :=
    ⟨_, accepted, by decide +kernel, by decide +kernel, rfl⟩
  have inside := literals_stay_inside _ false script _ accepted same {} .sqlserver
  cases planned : Plan.ofScript .postgresql script with
  | error failure =>
    rw [planned] at written
    cases written
  | ok plan =>
    obtain ⟨twin, twinned⟩ := inside.1.1 ⟨plan, planned⟩
    change Plan.ofScript .postgresql _ = _ at twinned
    rw [planned] at written
    rw [twinned] at injected
    exact ⟨script, plan, twin, accepted, planned, twinned, Except.ok.inj written, Except.ok.inj injected,
      inside.2 plan twin planned twinned⟩

end PipeSql
