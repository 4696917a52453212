import PipeSql.Proofs.Script.Recognizer
import PipeSql.Proofs.Script.Shape
import PipeSql.Script.Screen

set_option autoImplicit false

namespace PipeSql

namespace Grammar

open Recognizer Term

theorem gives_identifier : Gives identifier fun found => (Token.ident found.1).Sound := by
  refine gives_labelled (gives_spanned (fun name => (Token.ident name).Sound) (gives_accept ?_))
  intro token name sound used
  split at used
  · cases used
    exact sound
  · cases used

theorem gives_comma : Gives comma fun _ => True :=
  gives_symbol _

variable {term : Recognizer Term}

theorem gives_pipe (given : Gives term (FormedAt 1)) : Gives (pipe term) Pipe.WellFormed := by
  refine gives_bind given fun source sourceFormed => ?_
  refine gives_bind (gives_many (gives_bind (gives_symbol _) fun _ _ => given)) fun stages stagesFormed => ?_
  exact gives_pure ⟨sourceFormed, stagesFormed⟩

theorem gives_direction : Gives direction fun _ => True := by
  refine gives_first_of fun reader member => ?_
  simp only [List.mem_cons, List.not_mem_nil, or_false] at member
  rcases member with rfl | rfl
  · exact gives_bind (gives_keyword _) fun _ _ => gives_pure trivial
  · exact gives_bind (gives_keyword _) fun _ _ => gives_pure trivial

theorem gives_directed {inner : Recognizer Term} {property outcome : Term → Prop} (given : Gives inner property)
    (plain : ∀ term, property term → outcome term)
    (ordered : ∀ span term direction, property term → outcome (.ordered span term direction)) :
    Gives (directed inner) outcome := by
  refine gives_spanned_bind (fun found => property found.1) ?_ ?_
  · refine gives_bind given fun term holds => ?_
    exact gives_bind (gives_optional gives_direction) fun _ _ => gives_pure holds
  · rintro ⟨term, direction⟩ span holds
    cases direction with
    | none => exact gives_pure (plain term holds)
    | some direction => exact gives_pure (ordered span term direction holds)

theorem gives_aliased (given : Gives term (FormedAt 1)) :
    Gives (aliased term) fun term => (1 ≤ term.level ∨ term.isAliased = true) ∧ term.WellFormed := by
  refine gives_spanned_bind (fun found => FormedAt 1 found.1 ∧
    ∀ label, found.2 = some label → (Token.ident label.1).Sound) ?_ ?_
  · refine gives_bind given fun inner formed => ?_
    refine gives_bind (gives_optional ?_) fun label sound => gives_pure ⟨formed, sound⟩
    exact gives_bind (gives_keyword _) fun _ _ => gives_labelled gives_identifier
  · rintro ⟨inner, label⟩ span ⟨formed, sound⟩
    cases label with
    | none => exact gives_pure ⟨.inl formed.1, formed.2⟩
    | some label => exact gives_pure ⟨.inr rfl, formed.1, formed.2, sound label rfl⟩

theorem gives_on_argument (given : Gives term (FormedAt 1)) : Gives (onArgument term) WellFormed := by
  refine gives_spanned_bind (FormedAt 1) ?_ fun value span formed => gives_pure formed
  exact gives_bind (gives_keyword _) fun _ _ => gives_bind (gives_symbol _) fun _ _ => given

theorem gives_argument (given : Gives term (FormedAt 1)) : Gives (argument term) (FormedAt 0) := by
  refine gives_or_else (gives_mono (gives_on_argument given) fun _ formed => ⟨Nat.zero_le _, formed⟩) ?_
  refine gives_directed (gives_aliased given) ?_ ?_
  · intro term formed
    exact ⟨Nat.zero_le _, formed.2⟩
  · intro span term direction formed
    exact ⟨Nat.zero_le _, formed⟩

theorem gives_sort_key (given : Gives term (FormedAt 1)) :
    Gives (directed term) fun key => key.WellFormed ∧ key.isSortKey = true := by
  refine gives_directed given ?_ ?_
  · intro key formed
    refine ⟨formed.2, ?_⟩
    have free := formed.1
    cases key <;> simp_all [isSortKey, level]
  · intro span key direction formed
    exact ⟨⟨.inl formed.1, formed.2⟩, decide_eq_true formed.1⟩

def WindowFormed (window : List Term × List Term) : Prop :=
  Formed 1 window.1 ∧ Formed 0 window.2 ∧ ∀ key ∈ window.2, key.isSortKey = true

theorem gives_window (given : Gives term (FormedAt 1)) : Gives (window term) WindowFormed := by
  have partitions := gives_bind (gives_keyword .partition) fun _ _ =>
    gives_bind (gives_keyword .by) fun _ _ => gives_separated given gives_comma
  have orders := gives_bind (gives_keyword .order) fun _ _ =>
    gives_bind (gives_keyword .by) fun _ _ => gives_separated (gives_sort_key given) gives_comma
  refine gives_bind (gives_labelled (gives_symbol _)) fun _ _ => ?_
  refine gives_bind (gives_optional partitions) fun partitionBy partitionFormed => ?_
  refine gives_bind (gives_optional orders) fun orderBy orderFormed => ?_
  refine gives_bind (gives_labelled (gives_symbol _)) fun _ _ => gives_pure ⟨?_, ?_, ?_⟩
  · cases partitionBy with
    | none => trivial
    | some entries => exact (formed_iff 1 entries).2 (partitionFormed entries rfl).2
  · cases orderBy with
    | none => trivial
    | some keys =>
      exact (formed_iff 0 keys).2 fun key member => ⟨Nat.zero_le _, ((orderFormed keys rfl).2 key member).1⟩
  · cases orderBy with
    | none => simp
    | some keys => exact fun key member => ((orderFormed keys rfl).2 key member).2

theorem gives_call (given : Gives term (FormedAt 1)) : Gives (call term) (FormedAt 8) := by
  refine gives_spanned_bind (fun found => (Token.ident found.1.name).Sound ∧ Formed 0 found.2.1 ∧
    ∀ frame, found.2.2 = some frame → WindowFormed frame) ?_ ?_
  · refine gives_bind gives_identifier ?_
    rintro ⟨name, nameSpan⟩ sound
    refine gives_bind (gives_symbol _) fun _ _ => ?_
    refine gives_bind (gives_optional (gives_keyword _)) fun distinct _ => ?_
    refine gives_bind (gives_separated_or_none (gives_argument given) gives_comma) fun args argsFormed => ?_
    refine gives_bind (gives_labelled (gives_symbol _)) fun _ _ => ?_
    have framed := gives_bind (gives_keyword .over) fun _ _ => gives_window given
    refine gives_bind (gives_optional framed) fun frame frameFormed => ?_
    exact gives_pure ⟨sound, (formed_iff 0 args).2 argsFormed, frameFormed⟩
  · rintro ⟨head, args, frame⟩ span ⟨sound, argsFormed, frameFormed⟩
    cases frame with
    | none => exact gives_pure ⟨Nat.le_refl 8, sound, argsFormed⟩
    | some frame =>
      obtain ⟨partitionBy, orderBy⟩ := frame
      obtain ⟨partitionFormed, orderFormed, keys⟩ := frameFormed _ rfl
      exact gives_pure ⟨Nat.le_refl 8, sound, argsFormed, partitionFormed, orderFormed, keys⟩

theorem gives_lambda (given : Gives term (FormedAt 1)) : Gives (lambda term) (FormedAt 8) := by
  refine gives_spanned_bind (fun found => found.1 ≠ [] ∧
    (∀ name ∈ found.1, (Token.ident name).Sound) ∧ FormedAt 1 found.2) ?_ ?_
  · refine gives_bind (gives_keyword _) fun _ _ => ?_
    refine gives_bind (gives_labelled (gives_symbol _)) fun _ _ => ?_
    refine gives_bind (gives_separated (gives_labelled gives_identifier) gives_comma) fun params sound => ?_
    refine gives_bind (gives_symbol _) fun _ _ => ?_
    refine gives_bind (gives_labelled (gives_symbol _)) fun _ _ => ?_
    refine gives_bind given fun body formed => gives_pure ⟨by simpa using sound.1, ?_, formed⟩
    intro name member
    obtain ⟨param, present, rfl⟩ := List.mem_map.1 member
    exact sound.2 param present
  · rintro ⟨params, body⟩ span ⟨some, sound, formed⟩
    exact gives_pure ⟨Nat.le_refl 8, some, sound, formed.1, formed.2⟩

theorem gives_branch (given : Gives term (FormedAt 1)) :
    Gives (branch term) fun found => FormedAt 1 found.1 ∧ FormedAt 1 found.2 := by
  refine gives_bind (gives_keyword _) fun _ _ => ?_
  refine gives_bind given fun condition conditionFormed => ?_
  refine gives_bind (gives_keyword _) fun _ _ => ?_
  exact gives_bind given fun value valueFormed => gives_pure ⟨conditionFormed, valueFormed⟩

theorem gives_cases (given : Gives term (FormedAt 1)) : Gives (cases term) (FormedAt 8) := by
  refine gives_spanned_bind (fun found => OptionFormed found.1 ∧ found.2.1 ≠ [] ∧
    BranchesFormed found.2.1 ∧ OptionFormed found.2.2) ?_ ?_
  · refine gives_bind (gives_keyword _) fun _ _ => ?_
    refine gives_bind (gives_optional given) fun operand operandFormed => ?_
    refine gives_bind (gives_branch given) fun first firstFormed => ?_
    refine gives_bind (gives_many (gives_branch given)) fun others othersFormed => ?_
    have alternative := gives_bind (gives_keyword .else) fun _ _ => given
    refine gives_bind (gives_optional alternative) fun otherwise otherwiseFormed => ?_
    refine gives_bind (gives_keyword _) fun _ _ => gives_pure ⟨?_, by simp, ?_, ?_⟩
    · exact (option_formed_iff operand).2 operandFormed
    · refine (branches_formed_iff _).2 fun branch member => ?_
      rcases List.mem_cons.1 member with rfl | member
      · exact firstFormed
      · exact othersFormed branch member
    · exact (option_formed_iff otherwise).2 otherwiseFormed
  · rintro ⟨operand, branches, otherwise⟩ span formed
    exact gives_pure ⟨Nat.le_refl 8, formed⟩

theorem gives_existence (given : Gives term (FormedAt 1)) : Gives (existence term) (FormedAt 8) := by
  refine gives_spanned_bind Pipe.WellFormed ?_ ?_
  · refine gives_bind (gives_keyword _) fun _ _ => ?_
    refine gives_bind (gives_labelled (gives_symbol _)) fun _ _ => ?_
    refine gives_bind (gives_pipe given) fun query formed => ?_
    exact gives_bind (gives_labelled (gives_symbol _)) fun _ _ => gives_pure formed
  · rintro query span ⟨sourceFormed, stagesFormed⟩
    exact gives_pure ⟨Nat.le_refl 8, sourceFormed.1, sourceFormed.2, (formed_iff 1 _).2 stagesFormed⟩

theorem gives_parenthesis (given : Gives term (FormedAt 1)) : Gives (parenthesis term) (FormedAt 8) := by
  refine gives_spanned_bind Pipe.WellFormed ?_ ?_
  · refine gives_bind (gives_symbol _) fun _ _ => ?_
    refine gives_bind (gives_pipe given) fun query formed => ?_
    exact gives_bind (gives_symbol _) fun _ _ => gives_pure formed
  · rintro ⟨source, stages⟩ span ⟨sourceFormed, stagesFormed⟩
    cases stages with
    | nil => exact gives_pure ⟨Nat.le_refl 8, sourceFormed⟩
    | cons stage others =>
      exact gives_pure ⟨Nat.le_refl 8, sourceFormed.1, sourceFormed.2, by simp, (formed_iff 1 _).2 stagesFormed⟩

theorem gives_terminal : Gives terminal (FormedAt 8) := by
  refine gives_spanned_bind (fun shape => ∀ span, FormedAt 8 (shape span)) (gives_accept ?_)
    fun shape span formed => gives_pure (formed span)
  intro token shape sound used span
  split at used <;> cases used <;> exact ⟨Nat.le_refl 8, sound⟩

theorem gives_bare_name : Gives bareName (FormedAt 8) := by
  refine gives_bind gives_identifier ?_
  rintro ⟨name, span⟩ sound
  exact gives_pure ⟨Nat.le_refl 8, sound⟩

theorem gives_primary (given : Gives term (FormedAt 1)) : Gives (primary term) (FormedAt 8) := by
  refine gives_labelled (gives_first_of fun reader member => ?_)
  simp only [List.mem_cons, List.not_mem_nil, or_false] at member
  rcases member with rfl | rfl | rfl | rfl | rfl | rfl | rfl
  · exact gives_terminal
  · exact gives_call given
  · exact gives_bare_name
  · exact gives_lambda given
  · exact gives_cases given
  · exact gives_existence given
  · exact gives_parenthesis given

theorem gives_prefixed {op : UnaryOperator} {mark : Recognizer Unit} {operand : Recognizer Term}
    {property : Term → Prop} (given : Gives operand property) (marked : Gives mark fun _ => True)
    (kept : ∀ span term, property term → property (.unary span op term)) :
    Gives (prefixed op mark operand) property := by
  refine gives_bind (gives_true (gives_many (gives_spanned _ marked))) fun marks _ => ?_
  refine gives_bind given fun inner holds => gives_pure ?_
  induction marks with
  | nil => exact holds
  | cons mark marks ih => exact kept _ _ ih

theorem gives_leftward {operand : Recognizer Term} {operator : Recognizer Operator} {level : Nat}
    (given : Gives operand (FormedAt (level + 1)))
    (operated : Gives operator fun op => op.level = level ∧ op.leftLevel = level) :
    Gives (leftward operand operator) (FormedAt level) := by
  refine gives_bind given fun first firstFormed => ?_
  have stepped : Gives (do return (← operator, ← operand)) fun step =>
      (step.1.level = level ∧ step.1.leftLevel = level) ∧ FormedAt (level + 1) step.2 :=
    gives_bind operated fun op opLevel => gives_bind given fun right rightFormed => gives_pure ⟨opLevel, rightFormed⟩
  refine gives_bind (gives_many stepped) fun steps stepsFormed => gives_pure ?_
  -- The fold keeps a term of this level on the left.
  have start := formed_at_mono firstFormed (Nat.le_succ level)
  revert start
  generalize first = left
  induction steps generalizing left with
  | nil => exact id
  | cons step steps ih =>
    obtain ⟨op, right⟩ := step
    intro leftFormed
    obtain ⟨⟨same, sameLeft⟩, rightFormed⟩ := stepsFormed (op, right) (by simp)
    have sameLevel : op.level = level := same
    have sameLeftLevel : op.leftLevel = level := sameLeft
    refine ih (fun step member => stepsFormed step (by simp [member])) _ ⟨?_, ?_, ?_, leftFormed.2, rightFormed.2⟩
    · exact Nat.le_of_eq sameLevel.symm
    · exact sameLeftLevel ▸ leftFormed.1
    · exact sameLevel ▸ rightFormed.1

theorem gives_negation (given : Gives term (FormedAt 1)) : Gives (negation term) (FormedAt 7) := by
  refine gives_prefixed (gives_mono (gives_primary given) fun _ formed => formed_at_mono formed (by decide))
    (gives_symbol _) ?_
  intro span term formed
  exact ⟨Nat.le_refl 7, formed⟩

theorem gives_product (given : Gives term (FormedAt 1)) : Gives (product term) (FormedAt 6) := by
  refine gives_leftward (gives_negation given) (gives_accept ?_)
  intro token op sound used
  split at used <;> cases used <;> exact ⟨rfl, rfl⟩

theorem gives_sum (given : Gives term (FormedAt 1)) : Gives (sum term) (FormedAt 5) := by
  refine gives_leftward (gives_product given) (gives_accept ?_)
  intro token op sound used
  split at used <;> cases used <;> exact ⟨rfl, rfl⟩

theorem gives_comparison_operator :
    Gives comparisonOperator fun op => op.level = 4 ∧ op.leftLevel = 5 := by
  refine gives_accept ?_
  intro token op sound used
  split at used <;> cases used <;> exact ⟨rfl, rfl⟩

theorem gives_list_entry (given : Gives term (FormedAt 1)) : Gives (listEntry term) (FormedAt 1) := by
  refine gives_bind (gives_pipe given) ?_
  rintro ⟨source, stages⟩ ⟨sourceFormed, stagesFormed⟩
  cases stages with
  | nil => exact gives_pure sourceFormed
  | cons stage others =>
    exact gives_pure ⟨Nat.le_add_left 1 7, sourceFormed.1, sourceFormed.2, by simp,
      (formed_iff 1 _).2 stagesFormed⟩

def TailFormed : Tail → Prop
  | .compare op right => (op.level = 4 ∧ op.leftLevel = 5) ∧ FormedAt 5 right
  | .isNull _ => True
  | .inList _ items => Formed 1 items
  | .like _ pattern => FormedAt 5 pattern

theorem gives_negated : Gives negated fun _ => True :=
  gives_bind (gives_optional (gives_keyword _)) fun _ _ => gives_pure trivial

theorem gives_tail (given : Gives term (FormedAt 1)) : Gives (tail term) TailFormed := by
  refine gives_first_of fun reader member => ?_
  simp only [List.mem_cons, List.not_mem_nil, or_false] at member
  rcases member with rfl | rfl | rfl | rfl
  · refine gives_bind gives_comparison_operator fun op opLevel => ?_
    exact gives_bind (gives_sum given) fun right formed => gives_pure ⟨opLevel, formed⟩
  · refine gives_bind (gives_keyword _) fun _ _ => ?_
    refine gives_bind gives_negated fun _ _ => ?_
    exact gives_bind (gives_keyword _) fun _ _ => gives_pure trivial
  · refine gives_bind gives_negated fun _ _ => ?_
    refine gives_bind (gives_keyword _) fun _ _ => ?_
    refine gives_bind (gives_labelled (gives_symbol _)) fun _ _ => ?_
    refine gives_bind (gives_separated_or_none (gives_list_entry given) gives_comma) fun items formed => ?_
    exact gives_bind (gives_labelled (gives_symbol _)) fun _ _ => gives_pure ((formed_iff 1 items).2 formed)
  · refine gives_bind gives_negated fun _ _ => ?_
    refine gives_bind (gives_keyword _) fun _ _ => ?_
    exact gives_bind (gives_sum given) fun pattern formed => gives_pure formed

theorem attach_formed (span : Span) (left : Term) (tail : Tail) (leftFormed : FormedAt 5 left)
    (tailFormed : TailFormed tail) : FormedAt 4 (tail.attach span left) := by
  cases tail with
  | compare op right =>
    obtain ⟨⟨same, sameLeft⟩, rightFormed⟩ := tailFormed
    refine ⟨Nat.le_of_eq same.symm, ?_, ?_, leftFormed.2, rightFormed.2⟩
    · exact sameLeft ▸ leftFormed.1
    · exact same ▸ rightFormed.1
  | isNull negated => exact ⟨Nat.le_refl 4, leftFormed⟩
  | inList negated items => exact ⟨Nat.le_refl 4, leftFormed.1, leftFormed.2, tailFormed⟩
  | like negated pattern => exact ⟨Nat.le_refl 4, leftFormed.1, leftFormed.2, tailFormed⟩

theorem gives_comparison (given : Gives term (FormedAt 1)) : Gives (comparison term) (FormedAt 4) := by
  refine gives_spanned_bind (fun found => FormedAt 5 found.1 ∧
    ∀ tail, found.2 = some tail → TailFormed tail) ?_ ?_
  · refine gives_bind (gives_sum given) fun left leftFormed => ?_
    exact gives_bind (gives_optional (gives_tail given)) fun tail tailFormed =>
      gives_pure ⟨leftFormed, tailFormed⟩
  · rintro ⟨left, tail⟩ span ⟨leftFormed, tailFormed⟩
    cases tail with
    | none => exact gives_pure (formed_at_mono leftFormed (by decide))
    | some tail => exact gives_pure (attach_formed span left tail leftFormed (tailFormed tail rfl))

theorem gives_inversion (given : Gives term (FormedAt 1)) : Gives (inversion term) (FormedAt 3) := by
  refine gives_prefixed (gives_mono (gives_comparison given) fun _ formed => formed_at_mono formed (by decide))
    (gives_keyword _) ?_
  intro span term formed
  exact ⟨Nat.le_refl 3, formed⟩

theorem gives_conjunction (given : Gives term (FormedAt 1)) : Gives (conjunction term) (FormedAt 2) :=
  gives_leftward (gives_inversion given)
    (gives_bind (gives_keyword _) fun _ _ => gives_pure ⟨rfl, rfl⟩)

theorem gives_disjunction (given : Gives term (FormedAt 1)) : Gives (disjunction term) (FormedAt 1) :=
  gives_leftward (gives_conjunction given)
    (gives_bind (gives_keyword _) fun _ _ => gives_pure ⟨rfl, rfl⟩)

theorem gives_term (depth : Nat) : Gives (Grammar.term depth) (FormedAt 1) := by
  induction depth with
  | zero => exact gives_fail
  | succ depth ih => exact gives_disjunction ih

theorem gives_statement (given : Gives term (FormedAt 1)) :
    Gives (statement term) fun found => found.pipe.WellFormed := by
  refine gives_or_else ?_ (gives_map (gives_pipe given) fun _ formed => formed)
  refine gives_bind (gives_keyword _) fun _ _ => ?_
  refine gives_bind (gives_labelled gives_identifier) ?_
  rintro ⟨name, nameSpan⟩ sound
  refine gives_bind (gives_labelled (gives_symbol _)) fun _ _ => ?_
  exact gives_bind (gives_pipe given) fun value formed => gives_pure formed

theorem gives_script (given : Gives term (FormedAt 1)) : Gives (script term) Script.WellFormed := by
  refine gives_bind (gives_statement given) fun first firstFormed => ?_
  refine gives_bind (gives_many (gives_statement given)) fun others othersFormed => ?_
  refine gives_bind gives_at_end fun _ _ => gives_pure ?_
  intro statement member
  rcases List.mem_cons.1 member with rfl | member
  · exact firstFormed
  · exact othersFormed statement member

end Grammar

namespace Script

theorem parse_result {lexemes : List Lexeme} {width : Nat} {script : Script}
    (parsed : parse lexemes width = .ok script) :
    ∃ behind, (Grammar.script (Grammar.term (lexemes.length + 1)) ⟨0, 0, lexemes⟩).result = some (script, behind) := by
  unfold parse at parsed
  split at parsed
  · cases parsed
  · simp only at parsed
    split at parsed
    · rename_i found behind result
      cases parsed
      exact ⟨behind, result⟩
    · cases parsed

theorem parse_well_formed (lexemes : List Lexeme) (width : Nat) (script : Script)
    (sound : ∀ lexeme ∈ lexemes, lexeme.token.Sound) (parsed : parse lexemes width = .ok script) :
    script.WellFormed := by
  obtain ⟨behind, result⟩ := parse_result parsed
  refine (Grammar.gives_script (Grammar.gives_term _) _ _ _ ?_ result).1
  intro token member
  obtain ⟨lexeme, present, rfl⟩ := List.mem_map.1 member
  exact sound lexeme present

theorem read_stages (source : String) (screened : Bool) (script : Script)
    (accepted : read source screened = .ok script) :
    ∃ lexemes, tokenize source = .ok lexemes ∧ parse lexemes (Text.width source.toList) = .ok script := by
  unfold read at accepted
  cases tokens : tokenize source with
  | error fault =>
    rw [tokens] at accepted
    cases accepted
  | ok lexemes =>
    refine ⟨lexemes, rfl, ?_⟩
    have finished : (parse lexemes (Text.width source.toList)).mapError (·.diagnose source) = .ok script := by
      rw [tokens] at accepted
      cases screened with
      | false => exact accepted
      | true =>
        cases passed : screen source with
        | error diagnostic =>
          rw [passed] at accepted
          cases accepted
        | ok _ =>
          rw [passed] at accepted
          exact accepted
    cases parsed : parse lexemes (Text.width source.toList) with
    | error fault =>
      rw [parsed] at finished
      cases finished
    | ok found =>
      rw [parsed] at finished
      cases finished
      rfl

theorem read_of_stages {source : String} {lexemes : List Lexeme} {script : Script}
    (tokens : tokenize source = .ok lexemes) (parsed : parse lexemes (Text.width source.toList) = .ok script) :
    read source false = .ok script := by
  unfold read
  rw [tokens]
  change (parse lexemes (Text.width source.toList)).mapError (·.diagnose source) = .ok script
  rw [parsed]
  rfl

theorem read_well_formed (source : String) (screened : Bool) (script : Script)
    (accepted : read source screened = .ok script) : script.WellFormed := by
  obtain ⟨lexemes, tokens, parsed⟩ := read_stages source screened script accepted
  exact parse_well_formed lexemes _ script (tokenize_sound source lexemes tokens) parsed

end Script

end PipeSql
