import PipeSql.Proofs.Formula.Operands
import PipeSql.Proofs.Pipeline.Grouped
import PipeSql.Proofs.Statement.Tokens

set_option autoImplicit false

namespace PipeSql

open WhereText

namespace Formula

def isOperand : Formula → Bool
  | .member _ name => Text.isWord name.toList
  | .constant _ => true
  | _ => false

-- Connectives over truth values, columns, comparisons and tests of text. The operands are columns and
-- constants.
def isPropositional : Formula → Bool
  | .parameter _ => false
  | .member _ name => Text.isWord name.toList
  | .constant (.bool _) => true
  | .constant _ => false
  | .binary .and left right => left.isPropositional && right.isPropositional
  | .binary .or left right => left.isPropositional && right.isPropositional
  | .binary _ left right => left.isOperand && right.isOperand
  | .not inner => inner.isPropositional
  | .test _ target argument => target.isOperand && argument.isOperand

def operandText : Formula → String
  | .member _ name => name
  | .constant value => value.literal
  | _ => ""

-- The condition of a formula that has no connective.
def condition : Formula → String
  | .member _ name => name ++ " = 1"
  | .binary op left right =>
    let test := if op = .equal then " IS NULL" else " IS NOT NULL"
    if right = .constant .null then left.operandText ++ test
    else if left = .constant .null then right.operandText ++ test
    else left.operandText ++ " " ++ op.sql ++ " " ++ right.operandText
  | .test kind target (.constant (.text text)) => target.operandText ++ " LIKE " ++ kind.pattern text
  | _ => ""

-- The truth value of a formula, given that of its conditions.
def holds (valuation : String → Bool) : Formula → Bool
  | .constant (.bool value) => value
  | .binary .and left right => left.holds valuation && right.holds valuation
  | .binary .or left right => left.holds valuation || right.holds valuation
  | .not inner => !inner.holds valuation
  | formula => valuation formula.condition

-- What is written for a formula. Only a disjunction that is not folded is more than a list of factors.
structure Stated (formula : Formula) (text : String) : Prop where
  spelled : ∀ dialect : Dialect, dialect.Spells text text
  alternatives : ∀ valuation, Alternatives valuation text (formula.holds valuation)
  factors : formula.isLooseOr = false → ∀ valuation, Factors valuation text (formula.holds valuation)

variable {formula left right inner target argument : Formula} {text : String}

theorem stated_factors (spelled : ∀ dialect : Dialect, dialect.Spells text text)
    (factors : ∀ valuation, Factors valuation text (formula.holds valuation)) : Stated formula text :=
  ⟨spelled, fun valuation => alternatives_single (factors valuation), fun _ => factors⟩

theorem conjunct_eq (formula : Formula) (sql : String) :
    formula.conjunct sql = if formula.isLooseOr then "(" ++ sql ++ ")" else sql := by
  cases formula with
  | binary op left right =>
    cases op with
    | or =>
      change (if left.truth?.isSome && right.truth?.isSome then sql else "(" ++ sql ++ ")") =
        if left.truth?.isNone || right.truth?.isNone then "(" ++ sql ++ ")" else sql
      cases left.truth? <;> cases right.truth? <;> rfl
    | _ => rfl
  | _ => rfl

-- Among other conditions a formula is one or more factors.
theorem stated_conjunct (stated : Stated formula text) :
    (∀ dialect : Dialect, dialect.Spells (formula.conjunct text) (formula.conjunct text)) ∧
      ∀ valuation, Factors valuation (formula.conjunct text) (formula.holds valuation) := by
  rw [conjunct_eq]
  by_cases loose : formula.isLooseOr = true
  · rw [if_pos loose]
    exact ⟨fun dialect => Dialect.spells_enclosed (stated.spelled dialect),
      fun valuation => factors_single (factor_enclosed (stated.alternatives valuation))⟩
  · rw [if_neg loose]
    exact ⟨stated.spelled, stated.factors (by simpa using loose)⟩

theorem truth_holds {value : Bool} (known : formula.truth? = some value) (valuation : String → Bool) :
    formula.holds valuation = value := by
  unfold truth? at known
  split at known
  · cases known
    rfl
  · cases known

theorem truth_sql_factor (value : Bool) (valuation : String → Bool) : Factor valuation (truthSql value) value := by
  cases value <;> exact factor_constant rfl (bare_word (by decide) (by decide))

theorem truth_sql_spelled (value : Bool) (dialect : Dialect) : dialect.Spells (truthSql value) (truthSql value) := by
  cases value <;> exact Dialect.spells_plain dialect ⟨by decide, by decide, by decide⟩

theorem truth_stated {value : Bool} (known : ∀ valuation, formula.holds valuation = value) :
    Stated formula (truthSql value) := by
  apply stated_factors (truth_sql_spelled value)
  intro valuation
  rw [known]
  exact factors_single (truth_sql_factor value valuation)

-- A connective of two constants is folded, any other one joins what is written for both sides.
theorem connected_ok {fold : Bool → Bool → Bool} {join : String → String → String} {leftSql rightSql : Except Fault String}
    (done : connected fold join left right leftSql rightSql = .ok text) :
    (∃ first second, left.truth? = some first ∧ right.truth? = some second ∧ text = truthSql (fold first second)) ∨
      ((left.truth? = none ∨ right.truth? = none) ∧
        ∃ first second, leftSql = .ok first ∧ rightSql = .ok second ∧ text = join first second) := by
  unfold connected at done
  split at done
  · rename_i first second leftTruth rightTruth
    cases done
    exact .inl ⟨first, second, leftTruth, rightTruth, rfl⟩
  · rename_i notBoth
    obtain ⟨first, begun, done⟩ := Except.bind_ok done
    obtain ⟨second, ended, rfl⟩ := Except.map_ok done
    refine .inr ⟨?_, first, second, begun, ended, rfl⟩
    cases leftTruth : left.truth? with
    | none => exact .inl rfl
    | some value =>
      cases rightTruth : right.truth? with
      | none => exact .inr rfl
      | some other => exact absurd rightTruth (notBoth value other leftTruth)

theorem operand_value (operand : formula.isOperand = true) :
    formula.valueGiven formula.predicate = .ok formula.operandText ∧ IsOperand formula.operandText := by
  cases formula with
  | member target name => exact ⟨rfl, operand_name operand⟩
  | constant value => exact ⟨rfl, value.literal_operand⟩
  | _ => cases operand

-- The text with a keyword or an operator as a word of its own.
theorem spaced_word (word spaced first second : String) (same : spaced = " " ++ word ++ " ") :
    first ++ spaced ++ second = first ++ " " ++ word ++ " " ++ second := by
  rw [same]
  simp only [String.append_assoc]

theorem flag_text (name : String) : name ++ " = 1" = name ++ " " ++ "=" ++ " " ++ "1" := by
  have tail : " = 1" = " = " ++ "1" := rfl
  rw [tail, ← String.append_assoc, spaced_word "=" " = " _ _ rfl]

theorem or_text (first second : String) :
    "(" ++ first ++ ") OR (" ++ second ++ ")" = "(" ++ first ++ ")" ++ " OR " ++ ("(" ++ second ++ ")") := by
  have middle : ") OR (" = ")" ++ (" OR " ++ "(") := rfl
  rw [middle]
  simp only [String.append_assoc]

theorem spells_between {dialect : Dialect} {first word second : String} (plain : Text.Plain word)
    (begun : dialect.Spells first first) (ended : dialect.Spells second second) :
    dialect.Spells (first ++ " " ++ word ++ " " ++ second) (first ++ " " ++ word ++ " " ++ second) :=
  Dialect.spells_phrase (Dialect.spells_phrase begun (Dialect.spells_plain dialect plain)) ended

theorem comparator_plain {operator : String} (known : operator ∈ comparators) : Text.Plain operator := by
  have every : comparators.all (fun word => !word.toList.contains '\'' && !word.toList.contains '|' &&
      !word.toList.contains '(') = true := by decide
  have this := List.all_eq_true.1 every operator known
  simp only [Bool.and_eq_true, Bool.not_eq_true', List.contains_eq_mem, decide_eq_false_iff_not] at this
  exact ⟨this.1.1, this.1.2, this.2⟩

theorem phrase_stated {first operator second : String} (known : operator ∈ comparators) (begun : IsOperand first)
    (ended : IsOperand second)
    (meaning : ∀ valuation, formula.holds valuation = valuation (first ++ " " ++ operator ++ " " ++ second)) :
    Stated formula (first ++ " " ++ operator ++ " " ++ second) := by
  apply stated_factors
  · intro dialect
    exact spells_between (comparator_plain known) (begun.spelled dialect) (ended.spelled dialect)
  · intro valuation
    rw [meaning]
    exact factors_single (factor_comparison begun.word begun.changes known ended.word)

theorem null_test_stated {first test : String} (known : test = " IS NULL" ∨ test = " IS NOT NULL")
    (begun : IsOperand first) (meaning : ∀ valuation, formula.holds valuation = valuation (first ++ test)) :
    Stated formula (first ++ test) := by
  have parts : ∃ words, (words = ["NULL"] ∨ words = ["NOT", "NULL"]) ∧
      Text.joinWith " " (first :: "IS" :: words) = first ++ test ∧ Text.Plain (Text.joinWith " " ("IS" :: words)) := by
    rcases known with rfl | rfl
    · exact ⟨["NULL"], .inl rfl, String.append_assoc, by decide, by decide, by decide⟩
    · exact ⟨["NOT", "NULL"], .inr rfl, String.append_assoc, by decide, by decide, by decide⟩
  obtain ⟨words, keywords, text, plain⟩ := parts
  rw [← text] at meaning ⊢
  apply stated_factors
  · intro dialect
    exact Dialect.spells_phrase (begun.spelled dialect) (Dialect.spells_plain dialect plain)
  · intro valuation
    rw [meaning]
    exact factors_single (factor_null_test keywords begun.word begun.changes)

-- A comparison with NULL asks for the text of the other side only.
theorem comparison_ok {op : BinaryOp} {leftValue rightValue : Except Fault String}
    (done : comparison op left right leftValue rightValue = .ok text) :
    (right = .constant .null ∧ ∃ first, leftValue = .ok first ∧ nullTest op first = .ok text) ∨
      (right ≠ .constant .null ∧ left = .constant .null ∧
        ∃ second, rightValue = .ok second ∧ nullTest op second = .ok text) ∨
      (right ≠ .constant .null ∧ left ≠ .constant .null ∧
        ∃ first second, leftValue = .ok first ∧ rightValue = .ok second ∧
          text = first ++ " " ++ op.sql ++ " " ++ second) := by
  unfold comparison at done
  split at done
  · exact .inl ⟨rfl, Except.bind_ok done⟩
  · rename_i rightOther
    exact .inr (.inl ⟨rightOther, rfl, Except.bind_ok done⟩)
  · rename_i leftOther rightOther
    obtain ⟨first, begun, done⟩ := Except.bind_ok done
    obtain ⟨second, ended, rfl⟩ := Except.map_ok done
    exact .inr (.inr ⟨rightOther, leftOther, first, second, begun, ended, rfl⟩)

theorem null_test_ok {op : BinaryOp} {sql : String} (done : nullTest op sql = .ok text) :
    text = sql ++ if op = .equal then " IS NULL" else " IS NOT NULL" := by
  cases op <;> cases done <;> rfl

theorem comparison_holds {op : BinaryOp} (compares : op ≠ .and ∧ op ≠ .or) (valuation : String → Bool) :
    holds valuation (.binary op left right) = valuation (condition (.binary op left right)) := by
  cases op with
  | and => exact absurd rfl compares.1
  | or => exact absurd rfl compares.2
  | _ => rfl

theorem comparison_stated {op : BinaryOp} (compares : op ≠ .and ∧ op ≠ .or) (leftOperand : left.isOperand = true)
    (rightOperand : right.isOperand = true)
    (done : comparison op left right (left.valueGiven left.predicate) (right.valueGiven right.predicate) = .ok text) :
    Stated (.binary op left right) text := by
  obtain ⟨leftValue, leftWord⟩ := operand_value leftOperand
  obtain ⟨rightValue, rightWord⟩ := operand_value rightOperand
  have test : ∀ test, test = (if op = .equal then " IS NULL" else " IS NOT NULL") → test = " IS NULL" ∨ test = " IS NOT NULL" := by
    rintro test rfl
    by_cases equal : op = .equal <;> simp [equal]
  have known : op.sql ∈ comparators := by
    cases op with
    | and => exact absurd rfl compares.1
    | or => exact absurd rfl compares.2
    | _ => decide
  rw [leftValue, rightValue] at done
  rcases comparison_ok done with ⟨rightNull, _, ⟨⟩, tested⟩ | ⟨rightOther, leftNull, _, ⟨⟩, tested⟩ |
    ⟨rightOther, leftOther, _, _, ⟨⟩, ⟨⟩, rfl⟩
  · rw [null_test_ok tested]
    apply null_test_stated (test _ rfl) leftWord
    intro valuation
    rw [comparison_holds compares, condition, if_pos rightNull]
  · rw [null_test_ok tested]
    apply null_test_stated (test _ rfl) rightWord
    intro valuation
    rw [comparison_holds compares, condition, if_neg rightOther, if_pos leftNull]
  · apply phrase_stated known leftWord rightWord
    intro valuation
    rw [comparison_holds compares, condition, if_neg rightOther, if_neg leftOther]

theorem test_stated {kind : TextTest} (targetOperand : target.isOperand = true)
    (done : textTest kind argument (target.valueGiven target.predicate) = .ok text) :
    Stated (.test kind target argument) text := by
  obtain ⟨targetValue, targetWord⟩ := operand_value targetOperand
  rw [targetValue] at done
  unfold textTest at done
  split at done
  · rename_i value
    cases done
    rw [spaced_word "LIKE" " LIKE " _ _ rfl]
    apply phrase_stated (by decide) targetWord (kind.pattern_operand value)
    intro valuation
    rw [← spaced_word "LIKE" " LIKE " _ _ rfl]
    rfl
  · cases done

theorem and_stated {first second : String} (begun : Stated left first) (ended : Stated right second) :
    Stated (.binary .and left right) (left.conjunct first ++ " AND " ++ right.conjunct second) := by
  obtain ⟨leftSpelled, leftFactors⟩ := stated_conjunct begun
  obtain ⟨rightSpelled, rightFactors⟩ := stated_conjunct ended
  apply stated_factors
  · intro dialect
    rw [spaced_word "AND" " AND " _ _ rfl]
    exact spells_between ⟨by decide, by decide, by decide⟩ (leftSpelled dialect) (rightSpelled dialect)
  · intro valuation
    exact factors_and (leftFactors valuation) (rightFactors valuation)

theorem or_stated {first second : String} (begun : Stated left first) (ended : Stated right second)
    (loose : isLooseOr (.binary .or left right) = true) :
    Stated (.binary .or left right) ("(" ++ first ++ ") OR (" ++ second ++ ")") := by
  rw [or_text]
  refine ⟨?_, ?_, ?_⟩
  · intro dialect
    rw [spaced_word "OR" " OR " _ _ rfl]
    exact spells_between ⟨by decide, by decide, by decide⟩ (Dialect.spells_enclosed (begun.spelled dialect))
      (Dialect.spells_enclosed (ended.spelled dialect))
  · intro valuation
    exact alternatives_or (factors_single (factor_enclosed (begun.alternatives valuation)))
      (factors_single (factor_enclosed (ended.alternatives valuation)))
  · intro tight
    rw [loose] at tight
    cases tight

theorem not_stated {first : String} (stated : Stated inner first) : Stated (.not inner) ("NOT (" ++ first ++ ")") := by
  apply stated_factors
  · intro dialect
    have text : "NOT (" ++ first ++ ")" = "NOT" ++ " " ++ ("(" ++ first ++ ")") := by
      have opening : "NOT (" = "NOT" ++ (" " ++ "(") := rfl
      rw [opening]
      simp only [String.append_assoc]
    have keyword : dialect.Spells "NOT" "NOT" := Dialect.spells_plain dialect ⟨by decide, by decide, by decide⟩
    rw [text]
    exact Dialect.spells_phrase keyword (Dialect.spells_enclosed (stated.spelled dialect))
  · intro valuation
    exact factors_single (factor_negated (stated.alternatives valuation))

theorem predicate_stated (formula : Formula) (propositional : formula.isPropositional = true) {text : String}
    (done : formula.predicate = .ok text) : Stated formula text := by
  induction formula generalizing text with
  | parameter name => cases propositional
  | member target name =>
    cases done
    rw [flag_text]
    apply phrase_stated (by decide) (operand_name propositional) (operand_run (by decide) (by decide))
    intro valuation
    rw [← flag_text]
    rfl
  | constant value =>
    cases value with
    | bool value =>
      cases done
      exact truth_stated fun _ => rfl
    | _ => cases propositional
  | binary op left right leftStated rightStated =>
    cases op with
    | and =>
      obtain ⟨leftPlain, rightPlain⟩ := Bool.and_eq_true_iff.1 propositional
      rcases connected_ok done with ⟨first, second, leftTruth, rightTruth, rfl⟩ | ⟨_, first, second, begun, ended, rfl⟩
      · apply truth_stated
        intro valuation
        rw [holds, truth_holds leftTruth, truth_holds rightTruth]
      · exact and_stated (leftStated leftPlain begun) (rightStated rightPlain ended)
    | or =>
      obtain ⟨leftPlain, rightPlain⟩ := Bool.and_eq_true_iff.1 propositional
      rcases connected_ok done with ⟨first, second, leftTruth, rightTruth, rfl⟩ | ⟨loose, first, second, begun, ended, rfl⟩
      · apply truth_stated
        intro valuation
        rw [holds, truth_holds leftTruth, truth_holds rightTruth]
      · apply or_stated (leftStated leftPlain begun) (rightStated rightPlain ended)
        rcases loose with leftLoose | rightLoose
        · rw [isLooseOr, leftLoose]
          rfl
        · rw [isLooseOr, rightLoose, Option.isNone_none, Bool.or_true]
    | _ =>
      obtain ⟨leftPlain, rightPlain⟩ := Bool.and_eq_true_iff.1 propositional
      exact comparison_stated (by decide) leftPlain rightPlain done
  | not inner stated =>
    obtain ⟨first, begun, rfl⟩ := Except.map_ok done
    exact not_stated (stated propositional begun)
  | test kind target argument =>
    obtain ⟨targetPlain, _⟩ := Bool.and_eq_true_iff.1 propositional
    exact test_stated targetPlain done

end Formula

end PipeSql
