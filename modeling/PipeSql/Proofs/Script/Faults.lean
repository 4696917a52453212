import PipeSql.Proofs.Script.Lookahead

set_option autoImplicit false

namespace PipeSql

namespace Grammar

open Recognizer

variable {left right : Recognizer Term} {size twinSize : Nat}

theorem local_comma : Local size twinSize 1 comma comma :=
  local_symbol _

theorem local_identifier : Local size twinSize 1 identifier identifier :=
  local_labelled _ (local_spanned (local_accept _))

theorem local_direction : Local size twinSize 1 direction direction := by
  apply local_first_of (List.cons_ne_nil _ _)
  refine .cons ?_ (.cons ?_ .nil)
  · exact local_bind (local_keyword _) fun _ => local_pure _
  · exact local_bind (local_keyword _) fun _ => local_pure _

theorem local_terminal : Local size twinSize 1 terminal terminal :=
  local_spanned_bind (local_accept _) fun _ _ => local_pure _

theorem local_bare_name : Local size twinSize 1 bareName bareName :=
  local_bind local_identifier fun _ => local_pure _

theorem local_comparison_operator : Local size twinSize 1 comparisonOperator comparisonOperator :=
  local_accept _

theorem local_negated : Local size twinSize 0 negated negated :=
  local_bind (local_optional (local_keyword _)) fun _ => local_pure _

section

variable (given : Local size twinSize 1 left right)

include given

theorem local_pipe : Local size twinSize 1 (pipe left) (pipe right) := by
  apply local_bind given
  intro source
  have stage := local_bind (local_symbol .pipe) fun _ => given
  exact local_bind (local_many stage) fun _ => local_pure _

theorem local_directed : Local size twinSize 1 (directed left) (directed right) := by
  apply local_spanned_bind
  · apply local_bind given
    intro inner
    exact local_bind (local_optional local_direction) fun _ => local_pure _
  · rintro ⟨inner, direction⟩ span
    cases direction <;> exact local_pure _

theorem local_aliased : Local size twinSize 1 (aliased left) (aliased right) := by
  apply local_spanned_bind
  · apply local_bind given
    intro inner
    apply local_bind (local_optional (local_bind (local_keyword _) fun _ => local_labelled _ local_identifier))
    exact fun _ => local_pure _
  · rintro ⟨inner, label⟩ span
    cases label <;> exact local_pure _

theorem local_on_argument : Local size twinSize 1 (onArgument left) (onArgument right) := by
  apply local_spanned_bind
  · exact local_bind (local_keyword _) fun _ => local_bind (local_symbol _) fun _ => given
  · exact fun _ _ => local_pure _

theorem local_argument : Local size twinSize 1 (argument left) (argument right) :=
  local_or_else (local_on_argument given) (local_directed (local_aliased given))

theorem local_window : Local size twinSize 1 (window left) (window right) := by
  have partitions := local_bind (local_keyword .partition) fun _ =>
    local_bind (local_keyword .by) fun _ => local_separated given local_comma
  have orders := local_bind (local_keyword .order) fun _ =>
    local_bind (local_keyword .by) fun _ => local_separated (local_directed given) local_comma
  apply local_bind (local_labelled _ (local_symbol _))
  intro _
  apply local_bind (local_optional partitions)
  intro partitionBy
  apply local_bind (local_optional orders)
  intro orderBy
  exact local_bind (local_labelled _ (local_symbol _)) fun _ => local_pure _

theorem local_branch : Local size twinSize 1 (branch left) (branch right) := by
  apply local_bind (local_keyword _)
  intro _
  apply local_bind given
  intro condition
  apply local_bind (local_keyword _)
  intro _
  exact local_bind given fun _ => local_pure _

theorem local_list_entry : Local size twinSize 1 (listEntry left) (listEntry right) := by
  apply local_bind (local_pipe given)
  rintro ⟨source, stages⟩
  cases stages <;> exact local_pure _

-- A term inside another stands behind a token of it, where fewer tokens are ahead.

theorem local_call : Local (size + 1) (twinSize + 1) 1 (call left) (call right) := by
  apply local_spanned_bind
  · apply local_step local_identifier
    rintro ⟨name, nameSpan⟩
    apply local_bind (local_symbol _)
    intro _
    apply local_bind (local_optional (local_keyword _))
    intro distinct
    apply local_bind (local_separated_or_none (local_argument given) local_comma)
    intro args
    apply local_bind (local_labelled _ (local_symbol _))
    intro _
    have frame := local_bind (local_keyword .over) fun _ => local_window given
    exact local_bind (local_optional frame) fun _ => local_pure _
  · rintro ⟨head, args, frame⟩ span
    cases frame <;> exact local_pure _

theorem local_lambda : Local (size + 1) (twinSize + 1) 1 (lambda left) (lambda right) := by
  apply local_spanned_bind
  · apply local_step (local_keyword _)
    intro _
    apply local_bind (local_labelled _ (local_symbol _))
    intro _
    apply local_bind (local_separated (local_labelled _ local_identifier) local_comma)
    intro params
    apply local_bind (local_symbol _)
    intro _
    apply local_bind (local_labelled _ (local_symbol _))
    intro _
    exact local_bind given fun _ => local_pure _
  · exact fun _ _ => local_pure _

theorem local_cases : Local (size + 1) (twinSize + 1) 1 (cases left) (cases right) := by
  apply local_spanned_bind
  · apply local_step (local_keyword _)
    intro _
    apply local_bind (local_optional given)
    intro operand
    apply local_bind (local_branch given)
    intro first
    apply local_bind (local_many (local_branch given))
    intro others
    apply local_bind (local_optional (local_bind (local_keyword _) fun _ => given))
    intro otherwise
    exact local_bind (local_keyword _) fun _ => local_pure _
  · exact fun _ _ => local_pure _

theorem local_existence : Local (size + 1) (twinSize + 1) 1 (existence left) (existence right) := by
  apply local_spanned_bind
  · apply local_step (local_keyword _)
    intro _
    apply local_bind (local_labelled _ (local_symbol _))
    intro _
    apply local_bind (local_pipe given)
    intro query
    exact local_bind (local_labelled _ (local_symbol _)) fun _ => local_pure _
  · exact fun _ _ => local_pure _

theorem local_parenthesis : Local (size + 1) (twinSize + 1) 1 (parenthesis left) (parenthesis right) := by
  apply local_spanned_bind
  · apply local_step (local_symbol _)
    intro _
    apply local_bind (local_pipe given)
    intro query
    exact local_bind (local_symbol _) fun _ => local_pure _
  · rintro ⟨source, stages⟩ span
    cases stages <;> exact local_pure _

theorem local_primary : Local (size + 1) (twinSize + 1) 1 (primary left) (primary right) := by
  apply local_labelled
  apply local_first_of (List.cons_ne_nil _ _)
  exact .cons local_terminal (.cons (local_call given) (.cons local_bare_name (.cons (local_lambda given)
    (.cons (local_cases given) (.cons (local_existence given) (.cons (local_parenthesis given) .nil))))))

theorem local_prefixed (op : UnaryOperator) {mark : Recognizer Unit} (marks : Local size twinSize 1 mark mark) :
    Local size twinSize 1 (prefixed op mark left) (prefixed op mark right) :=
  local_lead (local_many (local_spanned marks)) fun _ => local_bind given fun _ => local_pure _

theorem local_leftward {operator : Recognizer Operator} (operators : Local size twinSize 1 operator operator) :
    Local size twinSize 1 (leftward left operator) (leftward right operator) := by
  apply local_bind given
  intro first
  have pair := local_bind operators fun op => local_bind given fun right => local_pure (op, right)
  exact local_bind (local_many pair) fun _ => local_pure _

theorem local_sum : Local (size + 1) (twinSize + 1) 1 (sum left) (sum right) := by
  have negations : Local (size + 1) (twinSize + 1) 1 (negation left) (negation right) :=
    local_prefixed (local_primary given) _ (local_symbol _)
  have products : Local (size + 1) (twinSize + 1) 1 (product left) (product right) :=
    local_leftward negations (local_accept _)
  exact local_leftward products (local_accept _)

theorem local_tail : Local (size + 1) (twinSize + 1) 1 (tail left) (tail right) := by
  apply local_first_of (List.cons_ne_nil _ _)
  refine .cons ?_ (.cons ?_ (.cons ?_ (.cons ?_ .nil)))
  · apply local_bind local_comparison_operator
    intro op
    exact local_bind (local_sum given) fun _ => local_pure _
  · apply local_bind (local_keyword _)
    intro _
    apply local_bind local_negated
    intro negated
    exact local_bind (local_keyword _) fun _ => local_pure _
  · apply local_lead local_negated
    intro negated
    apply local_step (local_keyword _)
    intro _
    apply local_bind (local_labelled _ (local_symbol _))
    intro _
    apply local_bind (local_separated_or_none (local_list_entry given) local_comma)
    intro items
    exact local_bind (local_labelled _ (local_symbol _)) fun _ => local_pure _
  · apply local_lead local_negated
    intro negated
    apply local_bind (local_keyword _)
    intro _
    exact local_bind (local_sum given) fun _ => local_pure _

theorem local_comparison : Local (size + 1) (twinSize + 1) 1 (comparison left) (comparison right) := by
  apply local_spanned_bind
  · apply local_bind (local_sum given)
    intro first
    exact local_bind (local_optional (local_tail given)) fun _ => local_pure _
  · rintro ⟨first, tail⟩ span
    cases tail <;> exact local_pure _

theorem local_disjunction : Local (size + 1) (twinSize + 1) 1 (disjunction left) (disjunction right) := by
  have inversions : Local (size + 1) (twinSize + 1) 1 (inversion left) (inversion right) :=
    local_prefixed (local_comparison given) _ (local_keyword _)
  have conjunctions : Local (size + 1) (twinSize + 1) 1 (conjunction left) (conjunction right) :=
    local_leftward inversions (local_bind (local_keyword .and) fun _ => local_pure _)
  exact local_leftward conjunctions (local_bind (local_keyword .or) fun _ => local_pure _)

theorem local_statement : Local size twinSize 1 (statement left) (statement right) := by
  apply local_or_else
  · apply local_bind (local_keyword _)
    intro _
    apply local_bind (local_labelled _ local_identifier)
    rintro ⟨name, nameSpan⟩
    apply local_bind (local_labelled _ (local_symbol _))
    intro _
    exact local_bind (local_pipe given) fun _ => local_pure _
  · exact local_map _ (local_pipe given)

theorem local_script : Local size twinSize 1 (script left) (script right) := by
  apply local_bind (local_statement given)
  intro first
  apply local_bind (local_many (local_statement given))
  intro others
  exact local_bind local_at_end fun _ => local_pure _

end

-- With no depth left there is no token ahead that could be read.
theorem steady_term (depth : Nat) : Steady depth 1 (term depth) := by
  have diagonal : Local depth depth 1 (term depth) (term depth) := by
    induction depth with
    | zero =>
      have steady : Steady 0 1 (term 0) := by
        refine ⟨fun cursor value behind found => ?_, fun cursor short => absurd short (Nat.not_lt_zero _)⟩
        cases found
      exact ⟨steady, steady, fun _ _ _ short => absurd short (Nat.not_lt_zero _)⟩
    | succ depth ih => exact local_disjunction ih
  exact diagonal.steady

theorem local_term (depth other : Nat) : Local depth other 1 (term depth) (term other) := by
  induction depth generalizing other with
  | zero => exact ⟨steady_term 0, steady_term other, fun _ _ _ short => absurd short (Nat.not_lt_zero _)⟩
  | succ depth ih =>
    cases other with
    | zero => exact ⟨steady_term _, steady_term 0, fun _ _ _ _ short => absurd short (Nat.not_lt_zero _)⟩
    | succ other => exact local_disjunction (ih other)

end Grammar

namespace Script

def attempt (lexemes : List Lexeme) : Attempt Script :=
  Grammar.script (Grammar.term (lexemes.length + 1)) ⟨0, 0, lexemes⟩

-- The script of the tokens, or the report about what is wrong with them.
def ofTokens (source : String) (lexemes : List Lexeme) : Except Diagnostic Script :=
  (parse lexemes (Text.width source.toList)).mapError (·.diagnose source)

theorem of_tokens_failed {source : String} {lexemes : List Lexeme} (filled : lexemes ≠ [])
    (failed : (attempt lexemes).result = none) :
    ofTokens source lexemes =
      .error ((Fault.ofStall lexemes (Text.width source.toList) (attempt lexemes).stall).diagnose source) := by
  have more : ¬lexemes.isEmpty = true := by rwa [List.isEmpty_iff]
  rw [attempt] at failed
  rw [ofTokens, parse, if_neg more]
  dsimp only
  rw [failed]
  rfl

theorem attempt_failed {source : String} {lexemes : List Lexeme} {diagnostic : Diagnostic} (filled : lexemes ≠ [])
    (refused : ofTokens source lexemes = .error diagnostic) : (attempt lexemes).result = none := by
  have more : ¬lexemes.isEmpty = true := by rwa [List.isEmpty_iff]
  cases read : (attempt lexemes).result with
  | none => rfl
  | some found =>
    rw [attempt] at read
    rw [ofTokens, parse, if_neg more] at refused
    dsimp only at refused
    rw [read] at refused
    cases refused

-- A script that is refused got stuck somewhere.
theorem attempt_stall {lexemes : List Lexeme} (failed : (attempt lexemes).result = none) :
    ∃ index wanted, (attempt lexemes).stall = some ⟨index, wanted⟩ := by
  have steady := (Grammar.local_script (Grammar.local_term (lexemes.length + 1) (lexemes.length + 1))).steady
  obtain ⟨⟨index, wanted⟩, told, -⟩ := steady.tells ⟨0, 0, lexemes⟩ (Nat.lt_succ_self _) failed
  exact ⟨index, wanted, told⟩

theorem attempt_local {lexemes others : List Lexeme} {index : Nat} {wanted : List String}
    (failed : (attempt lexemes).result = none) (stuck : (attempt lexemes).stall = some ⟨index, wanted⟩)
    (agree : others.take (index + 1) = lexemes.take (index + 1)) :
    (attempt others).stall = some ⟨index, wanted⟩ ∧ (attempt others).result = none := by
  have alike := Grammar.local_script (Grammar.local_term (lexemes.length + 1) (others.length + 1))
  have within : (attempt lexemes).Within (index + 1) := by
    refine ⟨fun stall told => ?_, fun found read => ?_⟩
    · rw [stuck] at told
      cases told
      exact Nat.lt_succ_self _
    · rw [failed] at read
      cases read
  have same := alike.agrees (index + 1) ⟨0, 0, lexemes⟩ ⟨0, 0, others⟩ (Nat.lt_succ_self _) (Nat.lt_succ_self _)
    ⟨rfl, rfl, agree.symm⟩ within
  exact ⟨same.stall.symm.trans stuck, same.failed failed⟩

end Script

/-- What stands behind the token that is reported does not matter to the report. -/
theorem grammar_faults_are_local (source : String) (lexemes : List Lexeme) (diagnostic : Diagnostic)
    (filled : lexemes ≠ []) (refused : Script.ofTokens source lexemes = .error diagnostic) :
    ∃ index wanted, (Script.attempt lexemes).stall = some ⟨index, wanted⟩ ∧
      (lexemes[index]? = none →
        diagnostic = (Script.Fault.unexpected none ⟨Text.width source.toList, Text.width source.toList⟩ wanted).diagnose
          source) ∧
      ∀ lexeme, lexemes[index]? = some lexeme →
        diagnostic = (Script.Fault.unexpected (some lexeme.token) lexeme.span wanted).diagnose source ∧
        ∀ others : List Lexeme, others.take (index + 1) = lexemes.take (index + 1) →
          Script.ofTokens source others = .error diagnostic := by
  have failed := Script.attempt_failed filled refused
  obtain ⟨index, wanted, stuck⟩ := Script.attempt_stall failed
  rw [Script.of_tokens_failed filled failed, stuck, Except.error.injEq] at refused
  simp only [Script.Fault.ofStall, Option.getD_some] at refused
  refine ⟨index, wanted, stuck, fun ended => ?_, fun lexeme found => ?_⟩
  · rw [ended] at refused
    exact refused.symm
  · rw [found] at refused
    refine ⟨refused.symm, fun others agree => ?_⟩
    obtain ⟨stuckAlike, failedAlike⟩ := Script.attempt_local failed stuck agree
    have foundAlike : others[index]? = some lexeme := by
      have fronts := congrArg (fun lexemes => lexemes[index]?) agree
      simp only [List.getElem?_take_of_lt (Nat.lt_succ_self index)] at fronts
      exact fronts.trans found
    have filledAlike : others ≠ [] := by
      rintro rfl
      cases foundAlike
    rw [Script.of_tokens_failed filledAlike failedAlike, stuckAlike]
    simp only [Script.Fault.ofStall, Option.getD_some, foundAlike]
    exact congrArg Except.error refused

set_option maxRecDepth 4000 in
theorem list_in_parentheses_is_refused_alike :
    let report : Except Diagnostic Script := .error
      ⟨.grammar, "Expected ')' or 'AND' or 'IN' or 'IS' or 'LIKE' or 'NOT' or 'OR' or '|>' or something else but found ','",
        some ⟨1, 2, 2, 3, "(2, 3)\n  ^"⟩⟩
    Script.ofTokens "(2, 3)" [⟨.symbol .leftParen, ⟨0, 1⟩⟩, ⟨.int "2", ⟨1, 2⟩⟩, ⟨.symbol .comma, ⟨2, 3⟩⟩,
        ⟨.int "3", ⟨4, 5⟩⟩, ⟨.symbol .rightParen, ⟨5, 6⟩⟩] = report ∧
      ∀ others : List Lexeme,
        others.take 3 = [⟨.symbol .leftParen, ⟨0, 1⟩⟩, ⟨.int "2", ⟨1, 2⟩⟩, ⟨.symbol .comma, ⟨2, 3⟩⟩] →
          Script.ofTokens "(2, 3)" others = report := by
  intro report
  refine ⟨rfl, fun others agree => ?_⟩
  obtain ⟨index, wanted, stuck, -, alike⟩ := grammar_faults_are_local "(2, 3)" [⟨.symbol .leftParen, ⟨0, 1⟩⟩,
    ⟨.int "2", ⟨1, 2⟩⟩, ⟨.symbol .comma, ⟨2, 3⟩⟩, ⟨.int "3", ⟨4, 5⟩⟩, ⟨.symbol .rightParen, ⟨5, 6⟩⟩] _
    (List.cons_ne_nil _ _) rfl
  cases stuck
  exact (alike _ rfl).2 others agree

end PipeSql
