import Mathlib.Data.List.Basic
import PipeSql.Pipeline.Expression
import PipeSql.Proofs.Script.Grammar

set_option autoImplicit false

namespace PipeSql

namespace Recognizer

variable {α β : Type} {property : α → Prop} {outcome : β → Prop}

def Yields (reader : Recognizer α) (property : α → Prop) : Prop :=
  ∀ (cursor : Cursor) (value : α) (behind : Cursor), (reader cursor).result = some (value, behind) → property value

theorem yields_mono {reader : Recognizer α} {weak : α → Prop} (given : Yields reader property)
    (implied : ∀ value, property value → weak value) : Yields reader weak :=
  fun cursor value behind found => implied value (given cursor value behind found)

theorem yields_pure {value : α} (holds : property value) : Yields (pure value) property := by
  intro cursor found behind result
  cases result
  exact holds

theorem yields_bind {first : Recognizer α} {next : α → Recognizer β} (given : Yields first property)
    (after : ∀ value, property value → Yields (next value) outcome) : Yields (first >>= next) outcome := by
  intro cursor value behind found
  rw [bind_result] at found
  obtain ⟨⟨middle, between⟩, read, rest⟩ := Option.bind_eq_some_iff.1 found
  exact after middle (given cursor middle between read) between value behind rest

-- What comes first does not matter.
theorem yields_after {first : Recognizer α} {next : α → Recognizer β} (after : ∀ value, Yields (next value) outcome) :
    Yields (first >>= next) outcome :=
  yields_bind (fun _ _ _ _ => trivial) fun value (_ : True) => after value

theorem yields_fail : Yields (fail : Recognizer α) property := by
  intro cursor value behind found
  cases found

theorem yields_accept {use : Token → Option α} (used : ∀ token value, use token = some value → property value) :
    Yields (accept use) property := by
  rintro ⟨index, offset, ahead⟩ value behind found
  cases ahead with
  | nil => cases found
  | cons lexeme ahead =>
    cases taken : use lexeme.token with
    | none => simp [accept, next, taken, refuse] at found
    | some result =>
      simp only [accept, next, taken, Option.some.injEq, Prod.mk.injEq] at found
      exact used lexeme.token value (found.1 ▸ taken)

theorem yields_labelled {label : String} {inner : Recognizer α} (given : Yields inner property) :
    Yields (labelled label inner) property := by
  intro cursor value behind found
  rw [labelled_result] at found
  exact given cursor value behind found

theorem yields_or_else {first second : Recognizer α} (left : Yields first property) (right : Yields second property) :
    Yields (orElse first second) property := by
  intro cursor value behind found
  rw [or_else_result] at found
  rcases Option.or_eq_some_iff.1 found with found | ⟨-, found⟩
  · exact left cursor value behind found
  · exact right cursor value behind found

theorem yields_first_of {readers : List (Recognizer α)} (given : ∀ reader ∈ readers, Yields reader property) :
    Yields (firstOf readers) property := by
  induction readers with
  | nil => exact yields_fail
  | cons reader others ih =>
    exact yields_or_else (given reader (.head _)) (ih fun other member => given other (.tail _ member))

theorem yields_optional {inner : Recognizer α} (given : Yields inner property) :
    Yields (optional inner) fun found => ∀ value ∈ found, property value := by
  refine yields_or_else (yields_bind given fun value holds => yields_pure ?_) (yields_pure ?_)
  · rintro _ ⟨⟩
    exact holds
  · rintro _ ⟨⟩

theorem yields_many {inner : Recognizer α} (given : Yields inner property) :
    Yields (many inner) fun values => ∀ value ∈ values, property value := by
  have bounded : ∀ bound, Yields (upTo inner bound) fun values => ∀ value ∈ values, property value := by
    intro bound
    induction bound with
    | zero => exact yields_pure (List.forall_mem_nil _)
    | succ bound ih =>
      refine yields_or_else ?_ (yields_pure (List.forall_mem_nil _))
      refine yields_bind given fun first holds => ?_
      exact yields_bind ih fun others rest => yields_pure (List.forall_mem_cons.2 ⟨holds, rest⟩)
  exact fun cursor => bounded (cursor.ahead.length + 1) cursor

theorem yields_separated {inner : Recognizer α} {separator : Recognizer Unit} (given : Yields inner property) :
    Yields (separated inner separator) fun values => ∀ value ∈ values, property value := by
  refine yields_bind given fun first holds => ?_
  refine yields_bind (yields_many (yields_after fun _ => given)) fun others rest => yields_pure ?_
  exact List.forall_mem_cons.2 ⟨holds, rest⟩

theorem yields_separated_or_none {inner : Recognizer α} {separator : Recognizer Unit} (given : Yields inner property) :
    Yields (separatedOrNone inner separator) fun values => ∀ value ∈ values, property value :=
  yields_or_else (yields_separated given) (yields_pure (List.forall_mem_nil _))

theorem yields_spanned_bind {inner : Recognizer α} {next : α × Span → Recognizer β} (property : α → Prop)
    (given : Yields inner property) (after : ∀ value span, property value → Yields (next (value, span)) outcome) :
    Yields (spanned inner >>= next) outcome := by
  have spanned : Yields (spanned inner) fun found => property found.1 := by
    intro cursor value behind found
    simp only [Recognizer.spanned, Option.map_eq_some_iff, Prod.exists, Prod.mk.injEq] at found
    obtain ⟨inside, after, read, rfl, rfl⟩ := found
    exact given cursor inside after read
  exact yields_bind spanned fun found holds => after found.1 found.2 holds

end Recognizer

namespace Term

-- Each operand is of a level that can stand next to the operator without parentheses.
def Tight : Term → Prop
  | .binary _ op left right => op.leftLevel ≤ left.level ∧ op.level < right.level
  | .unary _ .negate operand => 7 ≤ operand.level
  | .isNull _ operand _ => 5 ≤ operand.level
  | .inList _ operand _ _ => 5 ≤ operand.level
  | .like _ operand pattern _ => 5 ≤ operand.level ∧ 5 ≤ pattern.level
  | _ => True

def Normal (term : Term) : Prop :=
  ∀ inner : Term, inner.Within term → inner.Tight

def NormalAt (least : Nat) (term : Term) : Prop :=
  least ≤ term.level ∧ term.Normal

theorem normal_of_parts {term : Term} (tight : term.Tight) (parts : ∀ part ∈ term.parts, part.Normal) :
    term.Normal := by
  intro inner within
  cases within with
  | self => exact tight
  | deeper part outer member within => exact parts part member inner within

theorem normal_of_part {term part : Term} (tight : term.Tight) (only : term.parts = [part]) (normal : part.Normal) :
    term.Normal := by
  refine normal_of_parts tight ?_
  rw [only, List.forall_mem_singleton]
  exact normal

theorem normal_at_mono {least greater : Nat} {term : Term} (normal : NormalAt greater term) (le : least ≤ greater) :
    NormalAt least term :=
  ⟨Nat.le_trans le normal.1, normal.2⟩

end Term

def Pipe.Normal (pipe : Pipe) : Prop :=
  ∀ term ∈ pipe.source :: pipe.stages, term.Normal

namespace Grammar

open Recognizer Term

variable {term : Recognizer Term}

theorem yields_pipe (given : Yields term Normal) : Yields (pipe term) Pipe.Normal := by
  refine yields_bind given fun source sourceNormal => ?_
  refine yields_bind (yields_many (yields_after fun _ => given)) fun stages stagesNormal => yields_pure ?_
  exact List.forall_mem_cons.2 ⟨sourceNormal, stagesNormal⟩

theorem yields_directed (given : Yields term Normal) : Yields (directed term) Normal := by
  refine yields_spanned_bind (fun found => found.1.Normal) ?_ ?_
  · exact yields_bind given fun inner normal => yields_after fun _ => yields_pure normal
  · rintro ⟨inner, direction⟩ span normal
    cases direction with
    | none => exact yields_pure normal
    | some direction => exact yields_pure (normal_of_part trivial rfl normal)

theorem yields_aliased (given : Yields term Normal) : Yields (aliased term) Normal := by
  refine yields_spanned_bind (fun found => found.1.Normal) ?_ ?_
  · exact yields_bind given fun inner normal => yields_after fun _ => yields_pure normal
  · rintro ⟨inner, label⟩ span normal
    cases label with
    | none => exact yields_pure normal
    | some label => exact yields_pure (normal_of_part trivial rfl normal)

theorem yields_argument (given : Yields term Normal) : Yields (argument term) Normal := by
  refine yields_or_else ?_ (yields_directed (yields_aliased given))
  refine yields_spanned_bind Normal (yields_after fun _ => yields_after fun _ => given) fun value span normal => ?_
  exact yields_pure (normal_of_part trivial rfl normal)

theorem yields_window_part (first : Keyword) {entry : Recognizer Term} (given : Yields entry Normal) :
    Yields (optional do keyword first; keyword .by; separated entry comma) fun found =>
      ∀ part ∈ found.getD [], part.Normal := by
  refine yields_mono (yields_optional (yields_after fun _ => yields_after fun _ => yields_separated given)) ?_
  intro found normal
  cases found with
  | none => exact List.forall_mem_nil _
  | some entries => exact normal entries rfl

theorem yields_window (given : Yields term Normal) :
    Yields (window term) fun frame => ∀ part ∈ frame.1 ++ frame.2, part.Normal := by
  refine yields_after fun _ => yields_bind (yields_window_part .partition given) fun partitionBy partitionNormal => ?_
  refine yields_bind (yields_window_part .order (yields_directed given)) fun orderBy orderNormal => ?_
  exact yields_after fun _ => yields_pure (List.forall_mem_append.2 ⟨partitionNormal, orderNormal⟩)

theorem yields_call (given : Yields term Normal) : Yields (call term) (NormalAt 8) := by
  refine yields_spanned_bind (fun found => (∀ arg ∈ found.2.1, arg.Normal) ∧
    ∀ frame ∈ found.2.2, ∀ part ∈ frame.1 ++ frame.2, part.Normal) ?_ ?_
  · refine yields_after fun _ => yields_after fun _ => yields_after fun _ => ?_
    refine yields_bind (yields_separated_or_none (yields_argument given)) fun args argsNormal => ?_
    refine yields_after fun _ => ?_
    refine yields_bind (yields_optional (yields_after fun _ => yields_window given)) fun frame frameNormal => ?_
    exact yields_pure ⟨argsNormal, frameNormal⟩
  · rintro ⟨head, args, frame⟩ span ⟨argsNormal, frameNormal⟩
    cases frame with
    | none => exact yields_pure ⟨Nat.le_refl 8, normal_of_parts trivial argsNormal⟩
    | some frame =>
      obtain ⟨partitionBy, orderBy⟩ := frame
      refine yields_pure ⟨Nat.le_refl 8, normal_of_parts trivial ?_⟩
      rw [parts, List.append_assoc]
      exact List.forall_mem_append.2 ⟨argsNormal, frameNormal _ rfl⟩

theorem yields_lambda (given : Yields term Normal) : Yields (lambda term) (NormalAt 8) := by
  refine yields_spanned_bind (fun found => found.2.Normal) ?_ ?_
  · refine yields_after fun _ => yields_after fun _ => yields_after fun _ => yields_after fun _ => ?_
    exact yields_after fun _ => yields_bind given fun body normal => yields_pure normal
  · rintro ⟨params, body⟩ span normal
    exact yields_pure ⟨Nat.le_refl 8, normal_of_part trivial rfl normal⟩

theorem yields_branch (given : Yields term Normal) :
    Yields (branch term) fun found => found.1.Normal ∧ found.2.Normal := by
  refine yields_after fun _ => yields_bind given fun condition conditionNormal => ?_
  exact yields_after fun _ => yields_bind given fun value valueNormal => yields_pure ⟨conditionNormal, valueNormal⟩

theorem yields_cases (given : Yields term Normal) : Yields (cases term) (NormalAt 8) := by
  refine yields_spanned_bind (fun found => (∀ operand ∈ found.1, operand.Normal) ∧
    (∀ branch ∈ found.2.1, branch.1.Normal ∧ branch.2.Normal) ∧ ∀ otherwise ∈ found.2.2, otherwise.Normal) ?_ ?_
  · refine yields_after fun _ => yields_bind (yields_optional given) fun operand operandNormal => ?_
    refine yields_bind (yields_branch given) fun first firstNormal => ?_
    refine yields_bind (yields_many (yields_branch given)) fun others othersNormal => ?_
    refine yields_bind (yields_optional (yields_after fun _ => given)) fun otherwise otherwiseNormal => ?_
    refine yields_after fun _ => yields_pure ⟨operandNormal, ?_, otherwiseNormal⟩
    exact List.forall_mem_cons.2 ⟨firstNormal, othersNormal⟩
  · rintro ⟨operand, branches, otherwise⟩ span ⟨operandNormal, branchesNormal, otherwiseNormal⟩
    refine yields_pure ⟨Nat.le_refl 8, normal_of_parts trivial ?_⟩
    intro part member
    simp only [parts, List.mem_append, List.mem_map, Option.mem_toList] at member
    rcases member with ((member | ⟨branch, present, rfl⟩) | ⟨branch, present, rfl⟩) | member
    · exact operandNormal part member
    · exact (branchesNormal branch present).1
    · exact (branchesNormal branch present).2
    · exact otherwiseNormal part member

theorem yields_existence (given : Yields term Normal) : Yields (existence term) (NormalAt 8) := by
  refine yields_spanned_bind Pipe.Normal ?_ ?_
  · refine yields_after fun _ => yields_after fun _ => yields_bind (yields_pipe given) fun query normal => ?_
    exact yields_after fun _ => yields_pure normal
  · exact fun query span normal => yields_pure ⟨Nat.le_refl 8, normal_of_parts trivial normal⟩

theorem yields_parenthesis (given : Yields term Normal) : Yields (parenthesis term) (NormalAt 8) := by
  refine yields_spanned_bind Pipe.Normal ?_ ?_
  · refine yields_after fun _ => yields_bind (yields_pipe given) fun query normal => ?_
    exact yields_after fun _ => yields_pure normal
  · rintro ⟨source, stages⟩ span normal
    cases stages with
    | nil => exact yields_pure ⟨Nat.le_refl 8, normal_of_parts trivial normal⟩
    | cons stage others => exact yields_pure ⟨Nat.le_refl 8, normal_of_parts trivial normal⟩

theorem yields_terminal : Yields terminal (NormalAt 8) := by
  refine yields_spanned_bind (fun shape => ∀ span, NormalAt 8 (shape span)) (yields_accept ?_)
    fun shape span normal => yields_pure (normal span)
  intro token shape used span
  split at used <;> cases used <;> exact ⟨Nat.le_refl 8, normal_of_parts trivial (List.forall_mem_nil _)⟩

theorem yields_primary (given : Yields term Normal) : Yields (primary term) (NormalAt 8) := by
  refine yields_labelled (yields_first_of ?_)
  simp only [List.forall_mem_cons, List.not_mem_nil, false_imp_iff, implies_true, and_true]
  refine ⟨yields_terminal, yields_call given, ?_, yields_lambda given, yields_cases given, yields_existence given,
    yields_parenthesis given⟩
  exact yields_after fun _ => yields_pure ⟨Nat.le_refl 8, normal_of_parts trivial (List.forall_mem_nil _)⟩

theorem yields_prefixed {op : UnaryOperator} {mark : Recognizer Unit} {operand : Recognizer Term} {level : Nat}
    (given : Yields operand (NormalAt level))
    (kept : ∀ span inner, NormalAt level inner →
      level ≤ (Term.unary span op inner).level ∧ (Term.unary span op inner).Tight) :
    Yields (prefixed op mark operand) (NormalAt level) := by
  refine yields_after fun marks => yields_bind given fun inner normal => yields_pure ?_
  induction marks with
  | nil => exact normal
  | cons mark marks ih =>
    obtain ⟨least, tight⟩ := kept _ _ ih
    exact ⟨least, normal_of_part tight rfl ih.2⟩

theorem normal_joined {op : Operator} {left right : Term} {level leftLevel : Nat} (same : op.level = level)
    (sameLeft : op.leftLevel = leftLevel) (leftNormal : NormalAt leftLevel left)
    (rightNormal : NormalAt (level + 1) right) : NormalAt level (.joined op left right) := by
  refine ⟨Nat.le_of_eq same.symm, normal_of_parts ⟨?_, ?_⟩ ?_⟩
  · rw [sameLeft]
    exact leftNormal.1
  · rw [same]
    exact rightNormal.1
  · rw [joined, parts, List.forall_mem_cons, List.forall_mem_singleton]
    exact ⟨leftNormal.2, rightNormal.2⟩

theorem yields_leftward {operand : Recognizer Term} {operator : Recognizer Operator} {level : Nat}
    (given : Yields operand (NormalAt (level + 1)))
    (operated : Yields operator fun op => op.level = level ∧ op.leftLevel = level) :
    Yields (leftward operand operator) (NormalAt level) := by
  refine yields_bind given fun first firstNormal => ?_
  have stepped : Yields (do return (← operator, ← operand)) fun step =>
      (step.1.level = level ∧ step.1.leftLevel = level) ∧ NormalAt (level + 1) step.2 :=
    yields_bind operated fun op same => yields_bind given fun right normal => yields_pure ⟨same, normal⟩
  refine yields_bind (yields_many stepped) fun steps stepsNormal => yields_pure ?_
  -- The fold keeps a term of this level on the left.
  have start := normal_at_mono firstNormal (Nat.le_succ level)
  revert start
  generalize first = left
  induction steps generalizing left with
  | nil => exact id
  | cons step steps ih =>
    obtain ⟨op, right⟩ := step
    obtain ⟨⟨⟨same, sameLeft⟩, rightNormal⟩, others⟩ := List.forall_mem_cons.1 stepsNormal
    exact fun leftNormal => ih others _ (normal_joined same sameLeft leftNormal rightNormal)

theorem yields_negation (given : Yields term Normal) : Yields (negation term) (NormalAt 7) :=
  yields_prefixed (yields_mono (yields_primary given) fun _ normal => normal_at_mono normal (by decide))
    fun _ _ normal => ⟨Nat.le_refl 7, normal.1⟩

theorem yields_product (given : Yields term Normal) : Yields (product term) (NormalAt 6) := by
  refine yields_leftward (yields_negation given) (yields_accept ?_)
  intro token op used
  split at used <;> cases used <;> exact ⟨rfl, rfl⟩

theorem yields_sum (given : Yields term Normal) : Yields (sum term) (NormalAt 5) := by
  refine yields_leftward (yields_product given) (yields_accept ?_)
  intro token op used
  split at used <;> cases used <;> exact ⟨rfl, rfl⟩

theorem yields_comparison_operator : Yields comparisonOperator fun op => op.level = 4 ∧ op.leftLevel = 5 := by
  refine yields_accept ?_
  intro token op used
  split at used <;> cases used <;> exact ⟨rfl, rfl⟩

theorem yields_list_entry (given : Yields term Normal) : Yields (listEntry term) Normal := by
  refine yields_bind (yields_pipe given) ?_
  rintro ⟨source, stages⟩ normal
  cases stages with
  | nil => exact yields_pure (normal source (.head _))
  | cons stage others => exact yields_pure (normal_of_parts trivial normal)

-- What stands behind the first operand makes a term of level 4 of it.
def TailNormal (tail : Tail) : Prop :=
  ∀ span left, NormalAt 5 left → NormalAt 4 (tail.attach span left)

theorem yields_tail (given : Yields term Normal) : Yields (tail term) TailNormal := by
  refine yields_first_of ?_
  simp only [List.forall_mem_cons, List.not_mem_nil, false_imp_iff, implies_true, and_true]
  refine ⟨?_, ?_, ?_, ?_⟩
  · refine yields_bind yields_comparison_operator fun op same => ?_
    refine yields_bind (yields_sum given) fun right rightNormal => yields_pure fun span left leftNormal => ?_
    exact normal_joined same.1 same.2 leftNormal rightNormal
  · refine yields_after fun _ => yields_after fun _ => yields_after fun _ => ?_
    refine yields_pure fun span left leftNormal => ?_
    exact ⟨Nat.le_refl 4, normal_of_part leftNormal.1 rfl leftNormal.2⟩
  · refine yields_after fun _ => yields_after fun _ => yields_after fun _ => ?_
    refine yields_bind (yields_separated_or_none (yields_list_entry given)) fun items itemsNormal => ?_
    refine yields_after fun _ => yields_pure fun span left leftNormal => ?_
    exact ⟨Nat.le_refl 4, normal_of_parts leftNormal.1 (List.forall_mem_cons.2 ⟨leftNormal.2, itemsNormal⟩)⟩
  · refine yields_after fun _ => yields_after fun _ => yields_bind (yields_sum given) fun pattern patternNormal => ?_
    refine yields_pure fun span left leftNormal => ?_
    refine ⟨Nat.le_refl 4, normal_of_parts ⟨leftNormal.1, patternNormal.1⟩ ?_⟩
    exact List.forall_mem_cons.2 ⟨leftNormal.2, List.forall_mem_singleton.2 patternNormal.2⟩

theorem yields_comparison (given : Yields term Normal) : Yields (comparison term) (NormalAt 4) := by
  refine yields_spanned_bind (fun found => NormalAt 5 found.1 ∧ ∀ tail ∈ found.2, TailNormal tail) ?_ ?_
  · refine yields_bind (yields_sum given) fun left leftNormal => ?_
    exact yields_bind (yields_optional (yields_tail given)) fun tail tailNormal => yields_pure ⟨leftNormal, tailNormal⟩
  · rintro ⟨left, tail⟩ span ⟨leftNormal, tailNormal⟩
    cases tail with
    | none => exact yields_pure (normal_at_mono leftNormal (by decide))
    | some tail => exact yields_pure (tailNormal tail rfl span left leftNormal)

theorem yields_disjunction (given : Yields term Normal) : Yields (disjunction term) (NormalAt 1) := by
  have inversions : Yields (inversion term) (NormalAt 3) :=
    yields_prefixed (yields_mono (yields_comparison given) fun _ normal => normal_at_mono normal (by decide))
      fun _ _ _ => ⟨Nat.le_refl 3, trivial⟩
  have conjunctions : Yields (conjunction term) (NormalAt 2) :=
    yields_leftward inversions (yields_after fun _ => yields_pure ⟨rfl, rfl⟩)
  exact yields_leftward conjunctions (yields_after fun _ => yields_pure ⟨rfl, rfl⟩)

theorem yields_term (depth : Nat) : Yields (Grammar.term depth) Normal := by
  induction depth with
  | zero => exact yields_fail
  | succ depth ih => exact yields_mono (yields_disjunction ih) fun _ normal => normal.2

theorem yields_statement (given : Yields term Normal) :
    Yields (statement term) fun found => found.pipe.Normal := by
  refine yields_or_else ?_ (yields_bind (yields_pipe given) fun _ normal => yields_pure normal)
  refine yields_after fun _ => yields_after fun _ => yields_after fun _ => ?_
  exact yields_bind (yields_pipe given) fun value normal => yields_pure normal

theorem yields_script (given : Yields term Normal) :
    Yields (script term) fun found => ∀ statement ∈ found.statements, statement.pipe.Normal := by
  refine yields_bind (yields_statement given) fun first firstNormal => ?_
  refine yields_bind (yields_many (yields_statement given)) fun others othersNormal => ?_
  exact yields_after fun _ => yields_pure (List.forall_mem_cons.2 ⟨firstNormal, othersNormal⟩)

end Grammar

namespace Operator

theorem precedence_lt {op inner : Operator} (tighter : op.level < inner.level) : op.precedence < inner.precedence := by
  revert tighter
  cases op <;> cases inner <;> decide

theorem precedence_le {op inner : Operator} (tight : op.leftLevel ≤ inner.level) :
    op.precedence ≤ inner.precedence ∧ (op.isComparison = true → op.precedence < inner.precedence) := by
  revert tight
  cases op <;> cases inner <;> decide

theorem comparison_levels {op : Operator} (compares : op.isComparison = true) : op.leftLevel = 5 ∧ op.level = 4 := by
  revert compares
  cases op <;> decide

end Operator

namespace Term

def operator? : Term → Option Operator
  | .binary _ op _ _ => some op
  | _ => none

def isCondition : Term → Bool
  | .binary _ op _ _ => op == .and || op == .or || op.isComparison
  | .unary _ .not _ => true
  | .isNull .. | .inList .. | .like .. => true
  | _ => false

def Arranged : Term → Prop
  | .binary _ op left right =>
    (∀ inner ∈ left.operator?, op.precedence ≤ inner.precedence ∧
      (op.isComparison = true → op.precedence < inner.precedence)) ∧
    (∀ inner ∈ right.operator?, op.precedence < inner.precedence) ∧
    (op.isComparison = true → left.isCondition = false ∧ right.isCondition = false)
  | .unary _ .negate operand => operand.operator? = none
  | .isNull _ operand _ => operand.isCondition = false
  | .inList _ operand _ _ => operand.isCondition = false
  | .like _ operand pattern _ => operand.isCondition = false ∧ pattern.isCondition = false
  | _ => True

theorem operator_level {term : Term} {op : Operator} (top : op ∈ term.operator?) : term.level = op.level := by
  cases term with
  | binary span own left right =>
    cases top
    rfl
  | _ => cases top

theorem tight_no_condition {term : Term} (tight : 5 ≤ term.level) : term.isCondition = false := by
  cases term with
  | binary span op left right =>
    revert tight
    rw [level, isCondition]
    cases op <;> decide
  | unary span op operand =>
    cases op with
    | negate => rfl
    | not => simp [level] at tight
  | isNull | inList | like => simp [level] at tight
  | _ => rfl

theorem tight_no_operator {term : Term} (tight : 7 ≤ term.level) : term.operator? = none := by
  rw [Option.eq_none_iff_forall_not_mem]
  intro op top
  rw [operator_level top] at tight
  revert tight
  cases op <;> decide

theorem arranged_of_tight {term : Term} (tight : term.Tight) : term.Arranged := by
  cases term with
  | binary span op left right =>
    obtain ⟨leftTight, rightTight⟩ := tight
    refine ⟨fun inner top => ?_, fun inner top => ?_, fun compares => ?_⟩
    · exact Operator.precedence_le (operator_level top ▸ leftTight)
    · exact Operator.precedence_lt (operator_level top ▸ rightTight)
    · obtain ⟨leftLevel, level⟩ := Operator.comparison_levels compares
      rw [leftLevel] at leftTight
      rw [level] at rightTight
      exact ⟨tight_no_condition leftTight, tight_no_condition rightTight⟩
  | unary span op operand =>
    cases op with
    | negate => exact tight_no_operator tight
    | not => trivial
  | isNull | inList => exact tight_no_condition tight
  | like => exact ⟨tight_no_condition tight.1, tight_no_condition tight.2⟩
  | _ => trivial

theorem arranged_operands {span : Span} {op : Operator} {left right : Term}
    (arranged : (Term.binary span op left right).Arranged) :
    needsParens op left false = false ∧ needsParens op right true = false ∧
      (op = .and → left.operator? ≠ some .or ∧ right.operator? ≠ some .or) := by
  obtain ⟨leftTighter, rightTighter, -⟩ := arranged
  refine ⟨?_, ?_, ?_⟩
  · cases left with
    | binary place inner first second =>
      have tighter := (leftTighter inner rfl).1
      simp [needsParens, tighter]
    | _ => rfl
  · cases right with
    | binary place inner first second =>
      have tighter := rightTighter inner rfl
      simp [needsParens, Nat.le_of_lt tighter, Nat.ne_of_gt tighter]
    | _ => rfl
  · rintro rfl
    exact ⟨fun loose => absurd (leftTighter .or loose).1 (by decide),
      fun loose => absurd (rightTighter .or loose) (by decide)⟩

end Term

namespace Script

theorem parse_normal {lexemes : List Lexeme} {width : Nat} {script : Script}
    (parsed : parse lexemes width = .ok script) : ∀ statement ∈ script.statements, statement.pipe.Normal := by
  obtain ⟨behind, result⟩ := parse_result parsed
  exact Grammar.yields_script (Grammar.yields_term _) _ _ _ result

/-- In a script that was read each operand binds tightly enough, whatever the tokens were. -/
theorem parsed_operands_bind_tightly (lexemes : List Lexeme) (width : Nat) (script : Script)
    (parsed : parse lexemes width = .ok script) :
    ∀ term, script.Contains term → term.Arranged ∧ ∀ span op left right, term = .binary span op left right →
      Term.needsParens op left false = false ∧ Term.needsParens op right true = false ∧
        (op = .and → left.operator? ≠ some .or ∧ right.operator? ≠ some .or) := by
  rintro term ⟨statement, member, top, present, within⟩
  have arranged := Term.arranged_of_tight (parse_normal parsed statement member top present term within)
  refine ⟨arranged, ?_⟩
  rintro span op left right rfl
  exact Term.arranged_operands arranged

theorem mixed_operators_bind_tightly :
    ∃ lexemes script, tokenize "t |> filter(-a + b * c = d and not e in (f or g, h |> i))" = .ok lexemes ∧
      parse lexemes 57 = .ok script ∧ ∀ term, script.Contains term → term.Arranged := by
  have lexed : tokenize "t |> filter(-a + b * c = d and not e in (f or g, h |> i))" = .ok
      [⟨.ident "t", ⟨0, 1⟩⟩, ⟨.symbol .pipe, ⟨2, 4⟩⟩, ⟨.ident "filter", ⟨5, 11⟩⟩, ⟨.symbol .leftParen, ⟨11, 12⟩⟩,
        ⟨.symbol .minus, ⟨12, 13⟩⟩, ⟨.ident "a", ⟨13, 14⟩⟩, ⟨.symbol .plus, ⟨15, 16⟩⟩, ⟨.ident "b", ⟨17, 18⟩⟩,
        ⟨.symbol .star, ⟨19, 20⟩⟩, ⟨.ident "c", ⟨21, 22⟩⟩, ⟨.symbol .eq, ⟨23, 24⟩⟩, ⟨.ident "d", ⟨25, 26⟩⟩,
        ⟨.keyword .and, ⟨27, 30⟩⟩, ⟨.keyword .not, ⟨31, 34⟩⟩, ⟨.ident "e", ⟨35, 36⟩⟩, ⟨.keyword .in, ⟨37, 39⟩⟩,
        ⟨.symbol .leftParen, ⟨40, 41⟩⟩, ⟨.ident "f", ⟨41, 42⟩⟩, ⟨.keyword .or, ⟨43, 45⟩⟩, ⟨.ident "g", ⟨46, 47⟩⟩,
        ⟨.symbol .comma, ⟨47, 48⟩⟩, ⟨.ident "h", ⟨49, 50⟩⟩, ⟨.symbol .pipe, ⟨51, 53⟩⟩, ⟨.ident "i", ⟨54, 55⟩⟩,
        ⟨.symbol .rightParen, ⟨55, 56⟩⟩, ⟨.symbol .rightParen, ⟨56, 57⟩⟩] := by decide +kernel
  refine ⟨_, ⟨.query ⟨.ident ⟨0, 1⟩ "t", [.call ⟨5, 57⟩ ⟨"filter", ⟨5, 11⟩, false⟩ [.binary ⟨12, 56⟩ .and
      (.binary ⟨12, 26⟩ .eq
        (.binary ⟨12, 22⟩ .add (.unary ⟨12, 14⟩ .negate (.ident ⟨13, 14⟩ "a"))
          (.binary ⟨17, 22⟩ .mul (.ident ⟨17, 18⟩ "b") (.ident ⟨21, 22⟩ "c")))
        (.ident ⟨25, 26⟩ "d"))
      (.unary ⟨31, 56⟩ .not (.inList ⟨35, 56⟩ (.ident ⟨35, 36⟩ "e")
        [.binary ⟨41, 47⟩ .or (.ident ⟨41, 42⟩ "f") (.ident ⟨46, 47⟩ "g"),
          .pipe ⟨49, 55⟩ (.ident ⟨49, 50⟩ "h") [.ident ⟨54, 55⟩ "i"]] false))]]⟩, []⟩, lexed, ?read,
    fun term contained => (parsed_operands_bind_tightly _ 57 _ ?read term contained).1⟩
  set_option maxRecDepth 4000 in rfl

end Script

end PipeSql
