import PipeSql.Formula.Sql
import PipeSql.Predicate

set_option autoImplicit false

namespace PipeSql

universe u

-- What members, constants, comparisons and tests of text stand for. Where a truth value is wanted a value counts as
-- one, and a truth value is a value where one is wanted.
structure Interpretation (α : Type u) where
  member : α → String → α
  constant : Value → α
  compare : BinaryOp → α → α → Bool
  test : TextTest → α → α → Bool
  truth : α → Bool
  value : Bool → α
  truth_value : ∀ known, truth (value known) = known

namespace Formula

variable {α : Type u} (meaning : Interpretation α) (rows others : String → α) (source target : String)

-- The value of a formula, given the rows that its parameters name.
def eval : Formula → α
  | .parameter name => rows name
  | .member row name => meaning.member row.eval name
  | .constant value => meaning.constant value
  | .binary .and left right => meaning.value (meaning.truth left.eval && meaning.truth right.eval)
  | .binary .or left right => meaning.value (meaning.truth left.eval || meaning.truth right.eval)
  | .binary op left right => meaning.value (meaning.compare op left.eval right.eval)
  | .not inner => meaning.value (!meaning.truth inner.eval)
  | .test kind subject argument => meaning.value (meaning.test kind subject.eval argument.eval)

def parameters : Formula → List String
  | .parameter name => [name]
  | .member row _ => row.parameters
  | .constant _ => []
  | .binary _ left right => left.parameters ++ right.parameters
  | .not inner => inner.parameters
  | .test _ subject argument => subject.parameters ++ argument.parameters

def MentionsOnly (formula : Formula) (name : String) : Prop :=
  ∀ other ∈ formula.parameters, other = name

theorem eval_rebind (formula : Formula) :
    (formula.rebind source target).eval meaning rows =
      formula.eval meaning fun name => rows (if name = source then target else name) := by
  induction formula with
  | parameter name => rfl
  | member row name ih => simp only [rebind, eval, ih]
  | constant value => rfl
  | binary op left right leftIh rightIh => cases op <;> simp only [rebind, eval, leftIh, rightIh]
  | not inner ih => simp only [rebind, eval, ih]
  | test kind subject argument subjectIh argumentIh => simp only [rebind, eval, subjectIh, argumentIh]

theorem eval_agree (formula : Formula) (same : ∀ name ∈ formula.parameters, rows name = others name) :
    formula.eval meaning rows = formula.eval meaning others := by
  induction formula with
  | parameter name => exact same name (.head _)
  | member row name ih => simp only [eval, ih same]
  | constant value => rfl
  | binary op left right leftIh rightIh =>
    have first := leftIh fun name member => same name (List.mem_append_left _ member)
    have second := rightIh fun name member => same name (List.mem_append_right _ member)
    cases op <;> simp only [eval, first, second]
  | not inner ih => simp only [eval, ih same]
  | test kind subject argument subjectIh argumentIh =>
    have first := subjectIh fun name member => same name (List.mem_append_left _ member)
    have second := argumentIh fun name member => same name (List.mem_append_right _ member)
    simp only [eval, first, second]

theorem parameters_rebind (formula : Formula) :
    (formula.rebind source target).parameters =
      formula.parameters.map fun name => if name = source then target else name := by
  induction formula with
  | parameter name => rfl
  | member row name ih => exact ih
  | constant value => rfl
  | binary op left right leftIh rightIh => simp only [rebind, parameters, leftIh, rightIh, List.map_append]
  | not inner ih => exact ih
  | test kind subject argument subjectIh argumentIh =>
    simp only [rebind, parameters, subjectIh, argumentIh, List.map_append]

theorem mentions_rebind {formula : Formula} (only : formula.MentionsOnly source) :
    (formula.rebind source target).MentionsOnly target := by
  intro other member
  rw [parameters_rebind] at member
  obtain ⟨name, present, rfl⟩ := List.mem_map.1 member
  rw [if_pos (only name present)]

-- The fault of a formula whose parameter is renamed.
def Fault.rebind : Fault → Fault
  | .parameterAsPredicate name => .parameterAsPredicate (if name = source then target else name)
  | .parameterAsValue name => .parameterAsValue (if name = source then target else name)
  | fault => fault

def rebound : Except Fault String → Except Fault String
  | .ok sql => .ok sql
  | .error fault => .error (fault.rebind source target)

theorem rebound_bind (first : Except Fault String) (next : String → Except Fault String) :
    rebound source target (first >>= next) =
      rebound source target first >>= fun sql => rebound source target (next sql) := by
  cases first <;> rfl

theorem truth_rebind (formula : Formula) : (formula.rebind source target).truth? = formula.truth? := by
  cases formula <;> rfl

theorem conjunct_rebind (formula : Formula) (sql : String) :
    (formula.rebind source target).conjunct sql = formula.conjunct sql := by
  cases formula with
  | binary op left right => cases op <;> simp only [rebind, conjunct, truth_rebind]
  | _ => rfl

theorem value_rebind (formula : Formula) (predicate : Except Fault String) :
    (formula.rebind source target).valueGiven (rebound source target predicate) =
      rebound source target (formula.valueGiven predicate) := by
  cases formula <;> rfl

theorem rebind_null (formula : Formula) :
    formula.rebind source target = .constant .null ↔ formula = .constant .null := by
  cases formula <;> simp [rebind]

theorem null_test_rebound (op : BinaryOp) (sql : String) :
    rebound source target (nullTest op sql) = nullTest op sql := by
  cases op <;> rfl

theorem comparison_eq (op : BinaryOp) (left right : Formula) (leftValue rightValue : Except Fault String) :
    comparison op left right leftValue rightValue =
      if right = .constant .null then leftValue >>= nullTest op
      else if left = .constant .null then rightValue >>= nullTest op
      else do return (← leftValue) ++ " " ++ op.sql ++ " " ++ (← rightValue) := by
  unfold comparison
  split
  · rfl
  · rename_i other
    rw [if_neg other, if_pos rfl]
  · rename_i leftOther rightOther
    rw [if_neg rightOther, if_neg leftOther]

theorem comparison_rebind (op : BinaryOp) (left right : Formula) (leftValue rightValue : Except Fault String) :
    comparison op (left.rebind source target) (right.rebind source target) (rebound source target leftValue)
        (rebound source target rightValue) =
      rebound source target (comparison op left right leftValue rightValue) := by
  rw [comparison_eq, comparison_eq]
  simp only [rebind_null]
  split
  · rw [rebound_bind]
    simp only [null_test_rebound]
  · split
    · rw [rebound_bind]
      simp only [null_test_rebound]
    · cases leftValue <;> cases rightValue <;> rfl

theorem connected_rebind (fold : Bool → Bool → Bool) (join : String → String → String) (left right : Formula)
    (leftSql rightSql : Except Fault String) :
    connected fold join (left.rebind source target) (right.rebind source target) (rebound source target leftSql)
        (rebound source target rightSql) =
      rebound source target (connected fold join left right leftSql rightSql) := by
  simp only [connected, truth_rebind]
  split
  · rfl
  · cases leftSql <;> cases rightSql <;> rfl

theorem text_test_rebind (kind : TextTest) (argument : Formula) (subject : Except Fault String) :
    textTest kind (argument.rebind source target) (rebound source target subject) =
      rebound source target (textTest kind argument subject) := by
  cases argument with
  | constant value =>
    cases value with
    | text text => cases subject <;> rfl
    | _ => rfl
  | _ => rfl

theorem comparison_predicate {op : BinaryOp} (compares : op ≠ .and ∧ op ≠ .or) (left right : Formula) :
    (Formula.binary op left right).predicate =
      comparison op left right (left.valueGiven left.predicate) (right.valueGiven right.predicate) := by
  cases op with
  | and => exact absurd rfl compares.1
  | or => exact absurd rfl compares.2
  | _ => rfl

-- A renamed parameter shows in the fault alone.
theorem predicate_rebind (formula : Formula) :
    (formula.rebind source target).predicate = rebound source target formula.predicate := by
  induction formula with
  | parameter name => rfl
  | member row name ih => rfl
  | constant value => cases value <;> rfl
  | binary op left right leftIh rightIh =>
    by_cases compares : op ≠ .and ∧ op ≠ .or
    · rw [rebind, comparison_predicate compares, comparison_predicate compares, leftIh, rightIh, value_rebind,
        value_rebind, comparison_rebind]
    · cases op with
      | and =>
        rw [rebind, predicate, predicate, leftIh, rightIh, ← connected_rebind]
        simp only [conjunct_rebind]
      | or => rw [rebind, predicate, predicate, leftIh, rightIh, connected_rebind]
      | _ => exact absurd ⟨by decide, by decide⟩ compares
  | not inner ih =>
    rw [rebind, predicate, predicate, ih, rebound_bind]
    rfl
  | test kind subject argument subjectIh argumentIh =>
    rw [rebind, predicate, predicate, subjectIh, value_rebind, text_test_rebind]

theorem rebind_writes_alike (formula : Formula) (sql : String) :
    (formula.rebind source target).predicate = .ok sql ↔ formula.predicate = .ok sql := by
  rw [predicate_rebind]
  cases formula.predicate with
  | ok text => exact Iff.rfl
  | error fault => exact ⟨fun failed => (by cases failed), fun failed => (by cases failed)⟩

end Formula

namespace Predicate

variable {α : Type u} (meaning : Interpretation α) (rows others : String → α) (row : α)

-- Whether a row has the property. The other parameters name any rows.
def holds (predicate : Predicate) : Bool :=
  meaning.truth (predicate.body.eval meaning fun name => if name = predicate.parameter then row else rows name)

-- The body mentions no parameter but that of the predicate.
def Closed (predicate : Predicate) : Prop :=
  predicate.body.MentionsOnly predicate.parameter

variable {left right : Predicate}

theorem closed_holds (closed : left.Closed) : left.holds meaning rows row = left.holds meaning others row := by
  unfold holds
  rw [Formula.eval_agree]
  intro name member
  rw [if_pos (closed name member), if_pos (closed name member)]

-- The other side, in terms of the row of this one.
theorem body_for_eval (closed : right.Closed) (parameter : String) :
    meaning.truth ((right.bodyFor parameter).eval meaning fun name => if name = parameter then row else rows name) =
      right.holds meaning rows row := by
  rw [bodyFor, holds, Formula.eval_rebind, Formula.eval_agree]
  intro name member
  simp [closed name member]

theorem joined_mentions (op : BinaryOp) (leftClosed : left.Closed) (rightClosed : right.Closed) :
    (Formula.binary op left.body (right.bodyFor left.parameter)).MentionsOnly left.parameter := by
  intro name member
  rcases List.mem_append.1 member with member | member
  · exact leftClosed name member
  · exact Formula.mentions_rebind _ _ rightClosed name member

theorem and_holds (closed : right.Closed) :
    (left.and right).holds meaning rows row = (left.holds meaning rows row && right.holds meaning rows row) := by
  rw [← body_for_eval meaning rows row closed left.parameter]
  exact meaning.truth_value _

theorem or_holds (closed : right.Closed) :
    (left.or right).holds meaning rows row = (left.holds meaning rows row || right.holds meaning rows row) := by
  rw [← body_for_eval meaning rows row closed left.parameter]
  exact meaning.truth_value _

theorem not_holds (predicate : Predicate) : predicate.not.holds meaning rows row = !predicate.holds meaning rows row :=
  meaning.truth_value _

end Predicate

-- Predicates put together by combinators.
inductive Combination where
  | single (predicate : Predicate)
  | and (left right : Combination)
  | or (left right : Combination)
  | not (inner : Combination)

namespace Combination

def predicate : Combination → Predicate
  | .single predicate => predicate
  | .and left right => left.predicate.and right.predicate
  | .or left right => left.predicate.or right.predicate
  | .not inner => inner.predicate.not

-- The parameter of the first predicate.
def parameter : Combination → String
  | .single predicate => predicate.parameter
  | .and left _ | .or left _ => left.parameter
  | .not inner => inner.parameter

def parts : Combination → List Predicate
  | .single predicate => [predicate]
  | .and left right | .or left right => left.parts ++ right.parts
  | .not inner => inner.parts

def truth (known : Predicate → Bool) : Combination → Bool
  | .single predicate => known predicate
  | .and left right => left.truth known && right.truth known
  | .or left right => left.truth known || right.truth known
  | .not inner => !inner.truth known

theorem predicate_parameter (combination : Combination) : combination.predicate.parameter = combination.parameter := by
  induction combination with
  | single predicate => rfl
  | and left right ih | or left right ih => exact ih
  | not inner ih => exact ih

theorem predicate_closed (combination : Combination) (closed : ∀ part ∈ combination.parts, part.Closed) :
    combination.predicate.Closed := by
  induction combination with
  | single predicate => exact closed predicate (.head _)
  | and left right leftIh rightIh | or left right leftIh rightIh =>
    exact Predicate.joined_mentions _ (leftIh fun part member => closed part (List.mem_append_left _ member))
      (rightIh fun part member => closed part (List.mem_append_right _ member))
  | not inner ih => exact ih closed

theorem predicate_holds {α : Type u} (meaning : Interpretation α) (rows others : String → α) (row : α)
    (combination : Combination) (closed : ∀ part ∈ combination.parts, part.Closed) :
    combination.predicate.holds meaning rows row = combination.truth fun part => part.holds meaning others row := by
  induction combination with
  | single predicate => exact Predicate.closed_holds meaning rows others row (closed predicate (.head _))
  | and left right leftIh rightIh =>
    have second := fun part member => closed part (List.mem_append_right left.parts member)
    rw [predicate, Predicate.and_holds meaning rows row (right.predicate_closed second), rightIh second,
      leftIh fun part member => closed part (List.mem_append_left _ member)]
    rfl
  | or left right leftIh rightIh =>
    have second := fun part member => closed part (List.mem_append_right left.parts member)
    rw [predicate, Predicate.or_holds meaning rows row (right.predicate_closed second), rightIh second,
      leftIh fun part member => closed part (List.mem_append_left _ member)]
    rfl
  | not inner ih =>
    rw [predicate, Predicate.not_holds, ih closed]
    rfl

end Combination

theorem combinators_are_boolean (left right : Predicate) (leftClosed : left.Closed) (rightClosed : right.Closed) :
    ((left.and right).body.MentionsOnly left.parameter ∧ (left.or right).body.MentionsOnly left.parameter ∧
      left.not.body.MentionsOnly left.parameter) ∧
    (∀ (α : Type u) (meaning : Interpretation α) (rows others : String → α) (row : α),
      let first := left.holds meaning others row
      let second := right.holds meaning others row
      (left.and right).holds meaning rows row = (first && second) ∧
        (left.or right).holds meaning rows row = (first || second) ∧ left.not.holds meaning rows row = !first) ∧
    (∀ combination : Combination, (∀ part ∈ combination.parts, part.Closed) →
      combination.predicate.body.MentionsOnly combination.parameter ∧
      ∀ (α : Type u) (meaning : Interpretation α) (rows others : String → α) (row : α),
        combination.predicate.holds meaning rows row = combination.truth fun part => part.holds meaning others row) ∧
    ∀ (predicate : Predicate) (name sql : String),
      (predicate.body.rebind predicate.parameter name).predicate = .ok sql ↔ predicate.body.predicate = .ok sql := by
  refine ⟨⟨?_, ?_, leftClosed⟩, ?_, ?_, ?_⟩
  · exact Predicate.joined_mentions .and leftClosed rightClosed
  · exact Predicate.joined_mentions .or leftClosed rightClosed
  · intro α meaning rows others row first second
    have leftSame := Predicate.closed_holds meaning rows others row leftClosed
    have rightSame := Predicate.closed_holds meaning rows others row rightClosed
    rw [Predicate.and_holds meaning rows row rightClosed, Predicate.or_holds meaning rows row rightClosed,
      Predicate.not_holds, leftSame, rightSame]
    exact ⟨rfl, rfl, rfl⟩
  · intro combination closed
    refine ⟨?_, fun α meaning rows others row => combination.predicate_holds meaning rows others row closed⟩
    rw [← combination.predicate_parameter]
    exact combination.predicate_closed closed
  · intro predicate name sql
    exact Formula.rebind_writes_alike predicate.parameter name predicate.body sql

-- Both sides of the disjunction name their row x, and the other predicate names it y.
theorem combined_rows_are_boolean :
    let cheap : Predicate := ⟨"x", .against .less (.member (.parameter "x") "price") (.int 10)⟩
    let named : Predicate := ⟨"y", .testAgainst .contains (.member (.parameter "y") "name") (.text "it's")⟩
    let combination : Combination :=
      .and (.single named) (.not (.or (.single cheap) (.and (.single cheap) (.single named))))
    combination.predicate.body.MentionsOnly "y" ∧
      (∀ (meaning : Interpretation Nat) (rows others : String → Nat) (row : Nat),
        combination.predicate.holds meaning rows row = (named.holds meaning others row &&
          !(cheap.holds meaning others row || cheap.holds meaning others row && named.holds meaning others row))) ∧
      (named.body.rebind "y" "x").predicate = .ok "name LIKE '%it''s%'" := by
  intro cheap named combination
  have cheapClosed : cheap.Closed := by
    intro name member
    simpa [cheap, Formula.against, Formula.parameters] using member
  have namedClosed : named.Closed := by
    intro name member
    simpa [named, Formula.testAgainst, Formula.parameters] using member
  obtain ⟨-, -, nested, written⟩ := combinators_are_boolean cheap named cheapClosed namedClosed
  have closed : ∀ part ∈ combination.parts, part.Closed := by
    intro part member
    simp only [combination, Combination.parts, List.cons_append, List.nil_append, List.mem_cons, List.not_mem_nil,
      or_false] at member
    rcases member with rfl | rfl | rfl | rfl
    · exact namedClosed
    · exact cheapClosed
    · exact cheapClosed
    · exact namedClosed
  obtain ⟨only, holds⟩ := nested combination closed
  exact ⟨only, fun meaning rows others row => holds Nat meaning rows others row, (written named "x" _).2 rfl⟩

end PipeSql
