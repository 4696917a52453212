import PipeSql.Proofs.Statement.Reading
import PipeSql.Statement.Sql

set_option autoImplicit false

namespace PipeSql.Clause

mutual

inductive IsFormula : List (Condition Column) → Prop where
  | operand {conditions : List (Condition Column)} (operand : IsOperand conditions) : IsFormula conditions
  | connected {before after : List (Condition Column)} (connective : Connective) (formula : IsFormula before)
      (operand : IsOperand after) : IsFormula (before ++ .connective connective :: after)

inductive IsOperand : List (Condition Column) → Prop where
  | comparison (left : Column) (operator : Comparison) (right : String) : IsOperand [.comparison left operator right]
  | expression (text : String) : IsOperand [.expression text]
  | enclosed {conditions : List (Condition Column)} (formula : IsFormula conditions) :
      IsOperand (.opening :: conditions ++ [.closing])

end

theorem formula_connected {before after : List (Condition Column)} (connective : Connective)
    (left : IsFormula before) : IsFormula after → IsFormula (before ++ .connective connective :: after)
  | .operand operand => .connected connective left operand
  | .connected inner formula operand => by
    -- the operands stand to the right, so the longer clause is the shorter one with its last operand
    rw [← List.cons_append, ← List.append_assoc]
    exact .connected inner (formula_connected connective left formula) operand

theorem formula_enclosed {conditions : List (Condition Column)} (formula : IsFormula conditions) :
    IsFormula (.opening :: conditions ++ [.closing]) :=
  .operand (.enclosed formula)

mutual

-- Read on through a formula, the depth is what it was.
theorem formula_depth {conditions : List (Condition Column)} (depth : Nat) (rest : List (Condition Column)) :
    IsFormula conditions → Condition.balancedFrom depth (conditions ++ rest) = Condition.balancedFrom depth rest
  | .operand operand => operand_depth depth rest operand
  | .connected connective formula operand => by
    rw [List.append_assoc, List.cons_append, formula_depth depth _ formula]
    simp only [Condition.balancedFrom]
    exact operand_depth depth rest operand

theorem operand_depth {conditions : List (Condition Column)} (depth : Nat) (rest : List (Condition Column)) :
    IsOperand conditions → Condition.balancedFrom depth (conditions ++ rest) = Condition.balancedFrom depth rest
  | .comparison .. => by simp [Condition.balancedFrom]
  | .expression _ => by simp [Condition.balancedFrom]
  | .enclosed formula => by
    rw [List.append_assoc, List.cons_append]
    simp only [Condition.balancedFrom]
    rw [formula_depth (depth + 1) _ formula]
    rfl

end

theorem formula_some {conditions : List (Condition Column)} (formula : IsFormula conditions) : conditions ≠ [] := by
  rintro rfl
  generalize empty : ([] : List (Condition Column)) = conditions at formula
  cases formula with
  | operand operand => cases operand <;> simp at empty
  | connected => simp at empty

-- A statement may have no clause at all.
def IsGrouped (conditions : List (Condition Column)) : Prop :=
  conditions = [] ∨ IsFormula conditions

theorem grouped_balanced {conditions : List (Condition Column)} (grouped : IsGrouped conditions) :
    Condition.balanced conditions = true := by
  rcases grouped with rfl | formula
  · rfl
  · have scanned := formula_depth 0 [] formula
    rwa [List.append_nil] at scanned

theorem grouped_conjoin {before after : List (Condition Column)} (grouped : IsGrouped before)
    (formula : IsFormula after) : IsFormula (conjoin before after) := by
  rcases grouped with rfl | known
  · exact formula
  · have filled : before.isEmpty = false := by simpa using formula_some known
    rw [conjoin, filled]
    exact formula_connected .and known formula

end PipeSql.Clause
