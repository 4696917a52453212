import PipeSql.Proofs.Formula.Meaning
import PipeSql.Proofs.Statement.TreeText

set_option autoImplicit false

namespace PipeSql

open WhereText

namespace Formula

-- Every column has a word for its name.
def isNamed : Formula → Bool
  | .parameter _ => true
  | .member _ name => Text.isWord name.toList
  | .constant _ => true
  | .binary _ left right => left.isNamed && right.isNamed
  | .not inner => inner.isNamed
  | .test _ target _ => target.isNamed

def isSingle : Formula → Bool
  | .member _ _ | .constant _ => true
  | _ => false

-- Written without AND and OR, parentheses apart.
def isFree : Formula → Bool
  | .binary .and left right => left.truth?.isSome && right.truth?.isSome
  | .binary .or left right => left.truth?.isSome && right.truth?.isSome
  | .binary _ left right => left.isFree && right.isFree
  | .test _ target _ => target.isFree
  | _ => true

-- Written without AND, OR and NOT, parentheses apart.
def isChain : Formula → Bool
  | .binary .and left right => left.truth?.isSome && right.truth?.isSome
  | .binary .or left right => left.truth?.isSome && right.truth?.isSome
  | .binary _ left right => left.isChain && right.isChain
  | .test _ target _ => target.isChain
  | .not _ => false
  | _ => true

-- Written with NOT in front of all that follows. A test for NULL leaves NULL out.
def isNegated : Formula → Bool
  | .binary .and _ _ => false
  | .binary .or _ _ => false
  | .binary _ left right =>
    if right = .constant .null then left.isNegated
    else if left = .constant .null then right.isNegated
    else left.isNegated && right.isFree
  | .test _ target _ => target.isNegated
  | .not _ => true
  | _ => false

def isComparison : Formula → Bool
  | .binary op _ _ => op != .and && op != .or
  | .test _ _ _ => true
  | _ => false

-- The operator of a test for NULL.
def nullOperator (op : BinaryOp) : String :=
  if op = .equal then "IS" else "IS NOT"

-- How the text of a formula is read by itself.
def valueTree? (formula : Formula) : Option Tree :=
  formula.value.toOption.bind WhereText.tree?

-- The comparison of both sides, each as it is read by itself.
def sidesTree? : Formula → Option Tree
  | .binary op left right =>
    if right = .constant .null then left.valueTree?.map (.compare (nullOperator op) · (.operand "NULL"))
    else if left = .constant .null then right.valueTree?.map (.compare (nullOperator op) · (.operand "NULL"))
    else left.valueTree?.bind fun tree => right.valueTree?.map (.compare op.sql tree)
  | .test kind target (.constant (.text text)) =>
    target.valueTree?.map (.compare "LIKE" · (.operand (kind.pattern text)))
  | _ => none

-- When both are the same. The right side of a test for NULL and of a test of text is a constant.
def keepsSides : Formula → Bool
  | .binary _ left right =>
    if right = .constant .null then left.isChain
    else if left = .constant .null then right.isChain
    else left.isChain && (right.isSingle || right.isNegated)
  | .test _ target _ => target.isChain
  | _ => false

-- The text of a formula, and what its list of atoms tells of the formula.
structure Written (formula : Formula) (text : String) (atoms : List Atom) : Prop where
  made : MadeOf text atoms
  free : WhereText.isFree atoms = formula.isFree
  chain : WhereText.isChain atoms = formula.isChain
  negated : WhereText.isNegated atoms = formula.isNegated

-- The text of a comparison, divided at its operator.
structure Sides (formula : Formula) (text : String) (before : List Atom) (operator : String) (after : List Atom) :
    Prop where
  begins : Phrase before
  ends : Phrase after
  made : MadeOf text (before ++ .comparator operator :: after)
  free : (WhereText.isFree before && WhereText.isFree after) = formula.isFree
  chain : (WhereText.isChain before && WhereText.isChain after) = formula.isChain
  negated : (WhereText.isNegated before && WhereText.isFree after) = formula.isNegated
  kept : (WhereText.isChain before && (after.length == 1 || WhereText.isNegated after)) = formula.keepsSides
  tree : ∀ left right, disjunction before = some left → disjunction after = some right →
    formula.sidesTree? = some (.compare operator left right)

variable {formula left right inner target argument : Formula} {text first second operator : String}
  {atoms before after : List Atom}

theorem written_sides (sides : Sides formula text before operator after) :
    ∃ atoms, Written formula text atoms ∧ 1 < atoms.length := by
  have filled := phrase_filled sides.begins
  refine ⟨before ++ .comparator operator :: after, ⟨sides.made, ?_, ?_, ?_⟩, joined_long filled _ _⟩
  · rw [← sides.free, free_append]
    rfl
  · rw [← sides.chain, chain_joined]
  · rw [← sides.negated, negated_joined filled]

theorem value_tree (done : formula.value = .ok text) (made : MadeOf text atoms) :
    formula.valueTree? = disjunction atoms := by
  rw [valueTree?, done, ← tree_made made]
  rfl

-- The right side is an operand of its own.
theorem operand_sides (begun : Written left first before)
    (made : MadeOf text (before ++ [.comparator operator, .tree (.operand second)]))
    (free : left.isFree = formula.isFree) (chain : left.isChain = formula.isChain)
    (negated : left.isNegated = formula.isNegated) (kept : left.isChain = formula.keepsSides)
    (tree : ∀ tree, disjunction before = some tree →
      formula.sidesTree? = some (.compare operator tree (.operand second))) :
    Sides formula text before operator [.tree (.operand second)] where
  begins := begun.made.phrase
  ends := .tree _
  made := made
  free := (Bool.and_true _).trans (begun.free.trans free)
  chain := (Bool.and_true _).trans (begun.chain.trans chain)
  negated := (Bool.and_true _).trans (begun.negated.trans negated)
  kept := (Bool.and_true _).trans (begun.chain.trans kept)
  tree leftTree rightTree known same := by
    cases same
    exact tree leftTree known

theorem truth_made (value : Bool) : MadeOf (truthSql value)
    [.tree (.operand "1"), .comparator "=", .tree (.operand (Value.bool value).literal)] := by
  have one : IsOperand "1" := operand_run (by decide) (by decide)
  have digit := Value.literal_operand (.bool value)
  have spaced : MadeOf ("1" ++ " " ++ "=" ++ " " ++ (Value.bool value).literal) _ :=
    made_joined (by decide) (by decide) (made_operand one) (made_operand digit)
  refine made_unspaced ?_ ?_ (operand_piece one) (operator_piece (by decide)) (operand_piece digit) spaced
  · cases value <;> exact bare_word (by decide) (by decide)
  · cases value <;> decide +kernel

theorem truth_written (value : Bool) (free : formula.isFree = true) (chain : formula.isChain = true)
    (negated : formula.isNegated = false) : ∃ atoms, Written formula (truthSql value) atoms ∧ 1 < atoms.length :=
  ⟨_, ⟨truth_made value, free.symm, chain.symm, negated.symm⟩, by simp⟩

-- What is written for the value of a formula. Columns and constants are single words.
def ValueWritten (formula : Formula) : Prop :=
  ∀ {text}, formula.value = .ok text → ∃ atoms, Written formula text atoms ∧ (atoms.length == 1) = formula.isSingle

theorem value_written (named : formula.isNamed = true)
    (predicate : ∀ {text}, formula.predicate = .ok text → ∃ atoms, Written formula text atoms ∧ 1 < atoms.length) :
    ValueWritten formula := by
  intro text done
  have longer : ∀ {single : Bool}, single = false → formula.predicate = .ok text →
      ∃ atoms, Written formula text atoms ∧ (atoms.length == 1) = single := by
    rintro _ rfl done
    obtain ⟨atoms, written, long⟩ := predicate done
    exact ⟨atoms, written, beq_false_of_ne (Nat.ne_of_gt long)⟩
  cases formula with
  | parameter name => cases done
  | member target name =>
    cases done
    exact ⟨_, ⟨made_operand (operand_name named), rfl, rfl, rfl⟩, rfl⟩
  | constant value =>
    cases done
    exact ⟨_, ⟨made_operand value.literal_operand, rfl, rfl, rfl⟩, rfl⟩
  | binary | not | test => exact longer rfl done

theorem null_test_sides {op : BinaryOp} (begun : Written left first before) (done : left.value = .ok first)
    (tested : nullTest op first = .ok text) (free : left.isFree = formula.isFree)
    (chain : left.isChain = formula.isChain) (negated : left.isNegated = formula.isNegated)
    (kept : left.isChain = formula.keepsSides)
    (tree : formula.sidesTree? = left.valueTree?.map (.compare (nullOperator op) · (.operand "NULL"))) :
    Sides formula text before (nullOperator op) [.tree (.operand "NULL")] := by
  have made : MadeOf text (before ++ [.comparator (nullOperator op), .tree (.operand "NULL")]) := by
    rw [null_test_ok tested, nullOperator]
    apply made_null_test _ begun.made
    by_cases equal : op = .equal <;> simp [equal]
  refine operand_sides begun made free chain negated kept fun known same => ?_
  rw [tree, value_tree done begun.made, same, Option.map_some]

theorem comparison_sides {op : BinaryOp} (compares : op ≠ .and ∧ op ≠ .or) (leftWritten : ValueWritten left)
    (rightWritten : ValueWritten right)
    (done : comparison op left right left.value right.value = .ok text) :
    ∃ before operator after, Sides (.binary op left right) text before operator after := by
  obtain ⟨free, chain, negated⟩ : isFree (.binary op left right) = (left.isFree && right.isFree) ∧
      isChain (.binary op left right) = (left.isChain && right.isChain) ∧
      isNegated (.binary op left right) = if right = .constant .null then left.isNegated
        else if left = .constant .null then right.isNegated else left.isNegated && right.isFree := by
    cases op <;> first | exact ⟨rfl, rfl, rfl⟩ | simp at compares
  rcases comparison_ok done with ⟨rfl, first, begun, tested⟩ | ⟨rightOther, rfl, second, ended, tested⟩ |
    ⟨rightOther, leftOther, first, second, begun, ended, rfl⟩
  · obtain ⟨before, written, _⟩ := leftWritten begun
    refine ⟨_, _, _, null_test_sides written begun tested ?_ ?_ ?_ ?_ ?_⟩
    · rw [free]
      exact (Bool.and_true _).symm
    · rw [chain]
      exact (Bool.and_true _).symm
    · rw [negated, if_pos rfl]
    · rw [keepsSides, if_pos rfl]
    · rw [sidesTree?, if_pos rfl]
  · obtain ⟨before, written, _⟩ := rightWritten ended
    refine ⟨_, _, _, null_test_sides written ended tested ?_ ?_ ?_ ?_ ?_⟩
    · rw [free]
      rfl
    · rw [chain]
      rfl
    · rw [negated, if_neg rightOther, if_pos rfl]
    · rw [keepsSides, if_neg rightOther, if_pos rfl]
    · rw [sidesTree?, if_neg rightOther, if_pos rfl]
  · obtain ⟨before, leftKnown, _⟩ := leftWritten begun
    obtain ⟨after, rightKnown, single⟩ := rightWritten ended
    have known : op.sql ∈ operators ∧ op.sql ≠ "IS" ∧ Atom.ofOperator op.sql = .comparator op.sql := by
      cases op <;> first | decide | simp at compares
    have made := made_joined known.1 known.2.1 leftKnown.made rightKnown.made
    rw [known.2.2] at made
    refine ⟨before, op.sql, after, ⟨leftKnown.made.phrase, rightKnown.made.phrase, made, ?_, ?_, ?_, ?_, ?_⟩⟩
    · rw [free, leftKnown.free, rightKnown.free]
    · rw [chain, leftKnown.chain, rightKnown.chain]
    · rw [negated, if_neg rightOther, if_neg leftOther, leftKnown.negated, rightKnown.free]
    · rw [keepsSides, if_neg rightOther, if_neg leftOther, leftKnown.chain, single, rightKnown.negated]
    · intro leftTree rightTree leftRead rightRead
      rw [sidesTree?, if_neg rightOther, if_neg leftOther, value_tree begun leftKnown.made,
        value_tree ended rightKnown.made, leftRead, rightRead]
      rfl

theorem test_sides {kind : TextTest} (targetWritten : ValueWritten target)
    (done : textTest kind argument target.value = .ok text) :
    ∃ before operator after, Sides (.test kind target argument) text before operator after := by
  unfold textTest at done
  split at done
  · rename_i value
    obtain ⟨first, begun, rfl⟩ := Except.map_ok done
    obtain ⟨before, written, _⟩ := targetWritten begun
    have made : MadeOf (first ++ " LIKE " ++ kind.pattern value)
        (before ++ [.comparator "LIKE", .tree (.operand (kind.pattern value))]) := by
      rw [spaced_word "LIKE" " LIKE " _ _ rfl]
      exact made_joined (by decide) (by decide) written.made (made_operand (kind.pattern_operand value))
    refine ⟨before, "LIKE", _, operand_sides written made rfl rfl rfl rfl fun tree known => ?_⟩
    rw [sidesTree?, value_tree begun written.made, known, Option.map_some]
  · cases done

theorem enclosed_made (written : Written formula text atoms) : ∃ parts, MadeOf ("(" ++ text ++ ")") parts := by
  obtain ⟨tree, known⟩ := phrase_reads written.made.phrase
  exact ⟨_, made_enclosed written.made known⟩

theorem conjunct_made (written : Written formula text atoms) : ∃ parts, MadeOf (formula.conjunct text) parts := by
  rw [conjunct_eq]
  split
  · exact enclosed_made written
  · exact ⟨atoms, written.made⟩

theorem both_truths {value other : Bool} (leftTruth : left.truth? = some value)
    (rightTruth : right.truth? = some other) : (left.truth?.isSome && right.truth?.isSome) = true := by
  rw [leftTruth, rightTruth]
  rfl

theorem loose_truths (loose : left.truth? = none ∨ right.truth? = none) :
    (left.truth?.isSome && right.truth?.isSome) = false := by
  rcases loose with none | none
  · rw [none]
    rfl
  · rw [none]
    exact Bool.and_false _

-- A connective outside parentheses leaves nothing else to tell.
theorem connective_written {word : String} (known : word ∈ operators) (binary : word ≠ "IS")
    (connects : (Atom.ofOperator word).isConnective = true) (begun : ∃ parts, MadeOf first parts)
    (ended : ∃ parts, MadeOf second parts) (free : formula.isFree = false) (chain : formula.isChain = false)
    (negated : formula.isNegated = false) :
    ∃ atoms, Written formula (first ++ " " ++ word ++ " " ++ second) atoms ∧ 1 < atoms.length := by
  obtain ⟨before, leftMade⟩ := begun
  obtain ⟨after, rightMade⟩ := ended
  have bound : WhereText.isFree (before ++ .ofOperator word :: after) = false := by
    rw [free_append, free_cons, connects]
    exact Bool.and_false _
  refine ⟨_, ⟨made_joined known binary leftMade rightMade, bound.trans free.symm, ?_, ?_⟩,
    joined_long (phrase_filled leftMade.phrase) _ _⟩
  · rw [WhereText.isChain, bound, chain]
    rfl
  · rw [WhereText.isNegated, bound, negated, Bool.and_false]

theorem predicate_written (formula : Formula) (named : formula.isNamed = true) {text : String}
    (done : formula.predicate = .ok text) : ∃ atoms, Written formula text atoms ∧ 1 < atoms.length := by
  induction formula generalizing text with
  | parameter name => cases done
  | member target name =>
    cases done
    have made : MadeOf (name ++ " " ++ "=" ++ " " ++ "1") _ := made_joined (by decide) (by decide)
      (made_operand (operand_name named)) (made_operand (operand_run (by decide) (by decide)))
    rw [← flag_text] at made
    exact ⟨_, ⟨made, rfl, rfl, rfl⟩, by simp⟩
  | constant value =>
    cases value with
    | bool value =>
      cases done
      exact truth_written value rfl rfl rfl
    | _ => cases done
  | binary op left right leftWritten rightWritten =>
    obtain ⟨leftNamed, rightNamed⟩ := Bool.and_eq_true_iff.1 named
    cases op with
    | and =>
      rcases connected_ok done with ⟨first, second, leftTruth, rightTruth, rfl⟩ |
        ⟨loose, first, second, begun, ended, rfl⟩
      · exact truth_written _ (both_truths leftTruth rightTruth) (both_truths leftTruth rightTruth) rfl
      · obtain ⟨_, leftKnown, _⟩ := leftWritten leftNamed begun
        obtain ⟨_, rightKnown, _⟩ := rightWritten rightNamed ended
        rw [spaced_word "AND" " AND " _ _ rfl]
        exact connective_written (by decide) (by decide) rfl (conjunct_made leftKnown) (conjunct_made rightKnown)
          (loose_truths loose) (loose_truths loose) rfl
    | or =>
      rcases connected_ok done with ⟨first, second, leftTruth, rightTruth, rfl⟩ |
        ⟨loose, first, second, begun, ended, rfl⟩
      · exact truth_written _ (both_truths leftTruth rightTruth) (both_truths leftTruth rightTruth) rfl
      · obtain ⟨_, leftKnown, _⟩ := leftWritten leftNamed begun
        obtain ⟨_, rightKnown, _⟩ := rightWritten rightNamed ended
        rw [or_text, spaced_word "OR" " OR " _ _ rfl]
        exact connective_written (by decide) (by decide) rfl (enclosed_made leftKnown) (enclosed_made rightKnown)
          (loose_truths loose) (loose_truths loose) rfl
    | _ =>
      obtain ⟨before, operator, after, sides⟩ := comparison_sides (by decide)
        (value_written leftNamed (leftWritten leftNamed)) (value_written rightNamed (rightWritten rightNamed)) done
      exact written_sides sides
  | not inner written =>
    obtain ⟨first, begun, rfl⟩ := Except.map_ok done
    obtain ⟨atoms, inside, _⟩ := written named begun
    obtain ⟨tree, known⟩ := phrase_reads inside.made.phrase
    exact ⟨_, ⟨made_negated inside.made known, rfl, rfl, rfl⟩, by simp⟩
  | test kind target argument targetWritten =>
    have targetNamed : target.isNamed = true := named
    obtain ⟨before, operator, after, sides⟩ := test_sides (value_written targetNamed (targetWritten targetNamed)) done
    exact written_sides sides

end Formula

theorem comparison_keeps_sides_iff (formula : Formula) (compares : formula.isComparison = true)
    (named : formula.isNamed = true) {text : String} (accepted : formula.predicate = .ok text) :
    ∃ tree apart, WhereText.tree? text = some tree ∧ formula.sidesTree? = some apart ∧
      (tree = apart ↔ formula.keepsSides = true) := by
  have written : ∀ formula : Formula, formula.isNamed = true → formula.ValueWritten := fun formula named =>
    Formula.value_written named (Formula.predicate_written formula named)
  have sides : ∃ before operator after, formula.Sides text before operator after := by
    cases formula with
    | binary op left right =>
      obtain ⟨leftNamed, rightNamed⟩ := Bool.and_eq_true_iff.1 named
      cases op with
      | and | or => cases compares
      | _ => exact Formula.comparison_sides (by decide) (written left leftNamed) (written right rightNamed) accepted
    | test kind target argument => exact Formula.test_sides (written target named) accepted
    | _ => cases compares
  obtain ⟨before, operator, after, sides⟩ := sides
  obtain ⟨leftTree, begun⟩ := phrase_reads sides.begins
  obtain ⟨rightTree, ended⟩ := phrase_reads sides.ends
  obtain ⟨tree, whole⟩ := phrase_reads sides.made.phrase
  refine ⟨tree, .compare operator leftTree rightTree, (tree_made sides.made).trans whole,
    sides.tree leftTree rightTree begun ended, ?_⟩
  have kept := compare_keeps_sides sides.begins sides.ends operator begun ended
  rw [whole, Option.some.injEq] at kept
  rw [kept, ← sides.kept, Bool.and_eq_true, Bool.or_eq_true, beq_iff_eq]

-- LIKE on the left and NOT on the right.
theorem like_keeps_negated_side :
    ∃ tree apart, WhereText.tree? "a LIKE 'b%' = NOT (c = 1)" = some tree ∧
      Formula.sidesTree? (.binary .equal (.test .startsWith (.member (.parameter "x") "a") (.constant (.text "b")))
        (.not (.member (.parameter "x") "c"))) = some apart ∧ tree = apart := by
  obtain ⟨tree, apart, read, sides, kept⟩ := comparison_keeps_sides_iff
    (.binary .equal (.test .startsWith (.member (.parameter "x") "a") (.constant (.text "b")))
      (.not (.member (.parameter "x") "c"))) (by decide) (by decide) rfl
  exact ⟨tree, apart, read, sides, kept.2 (by decide)⟩

-- The comparison goes to the last alternative, and rows with the first flag are kept after all.
theorem disjunction_loses_comparison :
    Formula.predicate (.binary .equal (.binary .or (.member (.parameter "x") "A") (.member (.parameter "x") "B"))
        (.constant (.bool false))) = .ok "(A = 1) OR (B = 1) = 0" ∧
      WhereText.tree? "(A = 1) OR (B = 1) = 0" = some (.or (.compare "=" (.operand "A") (.operand "1"))
        (.compare "=" (.compare "=" (.operand "B") (.operand "1")) (.operand "0"))) ∧
      Formula.sidesTree? (.binary .equal (.binary .or (.member (.parameter "x") "A") (.member (.parameter "x") "B"))
        (.constant (.bool false))) = some (.compare "=" (.or (.compare "=" (.operand "A") (.operand "1"))
          (.compare "=" (.operand "B") (.operand "1"))) (.operand "0")) :=
  ⟨rfl, by decide +kernel, by decide +kernel⟩

end PipeSql
