import PipeSql.Proofs.Token.Sound
import PipeSql.Script.Term

set_option autoImplicit false

namespace PipeSql

namespace Operator

def level : Operator → Nat
  | .or => 1
  | .and => 2
  | .eq | .notEq | .lt | .gt | .ltEq | .gtEq => 4
  | .add | .sub | .concat => 5
  | .mul | .div | .mod => 6

-- Operators group from the left, but comparisons do not chain.
def leftLevel (op : Operator) : Nat :=
  if op.isComparison then 5 else op.level

end Operator

namespace Term

-- From a disjunction (1) to a primary term (8). An alias, a direction or a name makes an argument (0) of a
-- term, which cannot stand alone.
def level : Term → Nat
  | .aliased .. | .ordered .. | .named .. => 0
  | .binary _ op _ _ => op.level
  | .unary _ .not _ => 3
  | .isNull .. | .inList .. | .like .. => 4
  | .unary _ .negate _ => 7
  | _ => 8

def isAliased : Term → Bool
  | .aliased .. => true
  | _ => false

def isSortKey : Term → Bool
  | .ordered _ inner _ => decide (1 ≤ inner.level)
  | term => decide (1 ≤ term.level)

mutual

def WellFormed : Term → Prop
  | .ident _ name => (Token.ident name).Sound
  | .qualified _ parts => (Token.qualified parts).Sound
  | .wildcard _ none => True
  | .wildcard _ (some table) => (Token.tableWildcard table).Sound
  | .param _ name => (Token.param name).Sound
  | .literal _ (.int digits) => (Token.int digits).Sound
  | .literal _ (.decimal digits) => (Token.decimal digits).Sound
  | .literal _ (.str _) => True
  | .literal _ .null => True
  | .call _ head args => (Token.ident head.name).Sound ∧ Formed 0 args
  | .windowed _ head args partitionBy orderBy => (Token.ident head.name).Sound ∧ Formed 0 args ∧
      Formed 1 partitionBy ∧ Formed 0 orderBy ∧ ∀ key ∈ orderBy, key.isSortKey = true
  | .lambda _ params body => params ≠ [] ∧ (∀ name ∈ params, (Token.ident name).Sound) ∧
      1 ≤ body.level ∧ body.WellFormed
  | .cases _ operand branches otherwise => OptionFormed operand ∧ branches ≠ [] ∧
      BranchesFormed branches ∧ OptionFormed otherwise
  | .binary _ op left right => op.leftLevel ≤ left.level ∧ op.level < right.level ∧
      left.WellFormed ∧ right.WellFormed
  | .unary _ .not operand => 3 ≤ operand.level ∧ operand.WellFormed
  | .unary _ .negate operand => 7 ≤ operand.level ∧ operand.WellFormed
  | .isNull _ operand _ => 5 ≤ operand.level ∧ operand.WellFormed
  | .inList _ operand items _ => 5 ≤ operand.level ∧ operand.WellFormed ∧ Formed 1 items
  | .like _ operand pattern _ => 5 ≤ operand.level ∧ operand.WellFormed ∧
      5 ≤ pattern.level ∧ pattern.WellFormed
  | .exists _ source stages => 1 ≤ source.level ∧ source.WellFormed ∧ Formed 1 stages
  | .paren _ inner => 1 ≤ inner.level ∧ inner.WellFormed
  | .pipe _ source stages => 1 ≤ source.level ∧ source.WellFormed ∧ stages ≠ [] ∧ Formed 1 stages
  | .aliased _ inner label => 1 ≤ inner.level ∧ inner.WellFormed ∧ (Token.ident label).Sound
  | .ordered _ inner _ => (1 ≤ inner.level ∨ inner.isAliased = true) ∧ inner.WellFormed
  | .named _ _ value => 1 ≤ value.level ∧ value.WellFormed

def Formed (least : Nat) : List Term → Prop
  | [] => True
  | term :: rest => least ≤ term.level ∧ term.WellFormed ∧ Formed least rest

def OptionFormed : Option Term → Prop
  | none => True
  | some term => 1 ≤ term.level ∧ term.WellFormed

def BranchesFormed : List (Term × Term) → Prop
  | [] => True
  | (condition, value) :: rest => (1 ≤ condition.level ∧ condition.WellFormed) ∧
      (1 ≤ value.level ∧ value.WellFormed) ∧ BranchesFormed rest

end

def FormedAt (least : Nat) (term : Term) : Prop :=
  least ≤ term.level ∧ term.WellFormed

theorem formed_at_mono {least greater : Nat} {term : Term} (formed : FormedAt greater term)
    (le : least ≤ greater) : FormedAt least term :=
  ⟨Nat.le_trans le formed.1, formed.2⟩

theorem formed_iff (least : Nat) (terms : List Term) :
    Formed least terms ↔ ∀ term ∈ terms, FormedAt least term := by
  induction terms with
  | nil => simp [Formed]
  | cons term rest ih => simp [Formed, FormedAt, ih, and_assoc]

theorem branches_formed_iff (branches : List (Term × Term)) :
    BranchesFormed branches ↔ ∀ branch ∈ branches, FormedAt 1 branch.1 ∧ FormedAt 1 branch.2 := by
  induction branches with
  | nil => simp [BranchesFormed]
  | cons branch rest ih =>
    obtain ⟨condition, value⟩ := branch
    simp [BranchesFormed, FormedAt, ih, and_assoc]

theorem option_formed_iff (term : Option Term) :
    OptionFormed term ↔ ∀ inner, term = some inner → FormedAt 1 inner := by
  cases term with
  | none => simp [OptionFormed]
  | some inner => simp [OptionFormed, FormedAt]

def parts : Term → List Term
  | .ident .. | .qualified .. | .wildcard .. | .param .. | .literal .. => []
  | .call _ _ args => args
  | .windowed _ _ args partitionBy orderBy => args ++ partitionBy ++ orderBy
  | .lambda _ _ body => [body]
  | .cases _ operand branches otherwise =>
    operand.toList ++ branches.map Prod.fst ++ branches.map Prod.snd ++ otherwise.toList
  | .binary _ _ left right => [left, right]
  | .unary _ _ operand => [operand]
  | .isNull _ operand _ => [operand]
  | .inList _ operand items _ => operand :: items
  | .like _ operand pattern _ => [operand, pattern]
  | .exists _ source stages => source :: stages
  | .paren _ inner => [inner]
  | .pipe _ source stages => source :: stages
  | .aliased _ inner _ => [inner]
  | .ordered _ inner _ => [inner]
  | .named _ _ value => [value]

section

variable {property : Term → Prop} {span : Span} {head : CallHead} {args partitionBy orderBy : List Term}
  {operand otherwise : Option Term} {branches : List (Term × Term)}

theorem windowed_parts (each : ∀ part ∈ (windowed span head args partitionBy orderBy).parts, property part) :
    (∀ part ∈ args, property part) ∧ (∀ part ∈ partitionBy, property part) ∧ ∀ part ∈ orderBy, property part := by
  rw [parts, List.forall_mem_append, List.forall_mem_append] at each
  exact ⟨each.1.1, each.1.2, each.2⟩

theorem cases_parts (each : ∀ part ∈ (cases span operand branches otherwise).parts, property part) :
    (∀ inner, operand = some inner → property inner) ∧
      (∀ branch ∈ branches, property branch.1 ∧ property branch.2) ∧
      ∀ inner, otherwise = some inner → property inner := by
  rw [parts, List.forall_mem_append, List.forall_mem_append, List.forall_mem_append] at each
  obtain ⟨⟨⟨tested, conditions⟩, values⟩, left⟩ := each
  refine ⟨fun inner given => tested inner (Option.mem_toList.2 given), fun branch member => ?_,
    fun inner given => left inner (Option.mem_toList.2 given)⟩
  exact ⟨conditions _ (List.mem_map_of_mem member), values _ (List.mem_map_of_mem member)⟩

end

theorem height_le_heights (term : Term) (terms : List Term) (member : term ∈ terms) :
    term.height ≤ heights terms := by
  induction terms with
  | nil => cases member
  | cons first rest ih =>
    rw [heights]
    rcases List.mem_cons.1 member with rfl | member
    · exact Nat.le_max_left _ _
    · exact Nat.le_trans (ih member) (Nat.le_max_right _ _)

theorem height_le_branch_heights (branch : Term × Term) (branches : List (Term × Term)) (member : branch ∈ branches) :
    branch.1.height ≤ branchHeights branches ∧ branch.2.height ≤ branchHeights branches := by
  induction branches with
  | nil => cases member
  | cons first rest ih =>
    rw [branchHeights]
    rcases List.mem_cons.1 member with rfl | member
    · omega
    · have := ih member
      omega

theorem part_height (term part : Term) (member : part ∈ term.parts) : part.height < term.height := by
  have listed := height_le_heights part
  cases term with
  | ident | qualified | wildcard | param | literal => simp [parts] at member
  | call span head args =>
    have := listed args member
    rw [height]
    omega
  | windowed span head args partitionBy orderBy =>
    simp only [parts, List.mem_append] at member
    rw [height]
    rcases member with (member | member) | member
    · have := listed args member
      omega
    · have := listed partitionBy member
      omega
    · have := listed orderBy member
      omega
  | cases span operand branches otherwise =>
    simp only [parts, List.mem_append, List.mem_map, Option.mem_toList] at member
    rw [height]
    rcases member with ((rfl | ⟨branch, present, rfl⟩) | ⟨branch, present, rfl⟩) | rfl
    · rw [optionHeight]
      omega
    · have := height_le_branch_heights branch branches present
      omega
    · have := height_le_branch_heights branch branches present
      omega
    · rw [optionHeight.eq_2]
      omega
  | binary span op left right | like span left right negated =>
    simp only [parts, List.mem_cons, List.not_mem_nil, or_false] at member
    rw [height]
    rcases member with rfl | rfl <;> omega
  | inList span first rest negated | «exists» span first rest | pipe span first rest =>
    rw [height]
    rcases List.mem_cons.1 member with rfl | member
    · omega
    · have := listed rest member
      omega
  | lambda span params inner | unary span op inner | isNull span inner negated | paren span inner
  | aliased span inner label | ordered span inner direction | named span name inner =>
    obtain rfl := List.mem_singleton.1 member
    rw [height]
    omega

theorem parts_induction (motive : Term → Prop)
    (step : ∀ term : Term, (∀ part ∈ term.parts, motive part) → motive term) (term : Term) : motive term := by
  generalize bound : term.height = size
  induction size using Nat.strongRecOn generalizing term with
  | ind size ih =>
    refine step term fun part member => ih part.height ?_ part rfl
    rw [← bound]
    exact part_height term part member

theorem part_well_formed (term part : Term) (formed : term.WellFormed) (member : part ∈ term.parts) :
    part.WellFormed := by
  cases term with
  | ident | qualified | wildcard | param | literal => simp [parts] at member
  | call span head args =>
    exact ((formed_iff 0 args).1 formed.2 part member).2
  | windowed span head args partitionBy orderBy =>
    obtain ⟨-, argsFormed, partitionFormed, orderFormed, -⟩ := formed
    simp only [parts, List.mem_append] at member
    rcases member with (member | member) | member
    · exact ((formed_iff 0 args).1 argsFormed part member).2
    · exact ((formed_iff 1 partitionBy).1 partitionFormed part member).2
    · exact ((formed_iff 0 orderBy).1 orderFormed part member).2
  | lambda span params body =>
    obtain rfl := List.mem_singleton.1 member
    exact formed.2.2.2
  | cases span operand branches otherwise =>
    obtain ⟨operandFormed, -, branchesFormed, otherwiseFormed⟩ := formed
    rw [branches_formed_iff] at branchesFormed
    simp only [parts, List.mem_append, List.mem_map, Option.mem_toList] at member
    rcases member with ((member | ⟨branch, present, rfl⟩) | ⟨branch, present, rfl⟩) | member
    · exact ((option_formed_iff operand).1 operandFormed part member).2
    · exact (branchesFormed branch present).1.2
    · exact (branchesFormed branch present).2.2
    · exact ((option_formed_iff otherwise).1 otherwiseFormed part member).2
  | binary span op left right =>
    simp only [parts, List.mem_cons, List.not_mem_nil, or_false] at member
    rcases member with rfl | rfl
    · exact formed.2.2.1
    · exact formed.2.2.2
  | unary span op operand =>
    obtain rfl := List.mem_singleton.1 member
    cases op with
    | negate => exact formed.2
    | not => exact formed.2
  | isNull span operand negated =>
    obtain rfl := List.mem_singleton.1 member
    exact formed.2
  | inList span operand items negated =>
    rcases List.mem_cons.1 member with rfl | member
    · exact formed.2.1
    · exact ((formed_iff 1 items).1 formed.2.2 part member).2
  | like span operand pattern negated =>
    simp only [parts, List.mem_cons, List.not_mem_nil, or_false] at member
    rcases member with rfl | rfl
    · exact formed.2.1
    · exact formed.2.2.2
  | «exists» span source stages =>
    rcases List.mem_cons.1 member with rfl | member
    · exact formed.2.1
    · exact ((formed_iff 1 stages).1 formed.2.2 part member).2
  | paren span inner =>
    obtain rfl := List.mem_singleton.1 member
    exact formed.2
  | pipe span source stages =>
    rcases List.mem_cons.1 member with rfl | member
    · exact formed.2.1
    · exact ((formed_iff 1 stages).1 formed.2.2.2 part member).2
  | aliased span inner label =>
    obtain rfl := List.mem_singleton.1 member
    exact formed.2.1
  | ordered span inner direction =>
    obtain rfl := List.mem_singleton.1 member
    exact formed.2
  | named span name value =>
    obtain rfl := List.mem_singleton.1 member
    exact formed.2

-- A term stands in another one, at any depth, or is it.
inductive Within : Term → Term → Prop where
  | self (term : Term) : Within term term
  | deeper (inner part outer : Term) (member : part ∈ outer.parts) (within : Within inner part) :
      Within inner outer

theorem within_well_formed (inner outer : Term) (within : Within inner outer) (formed : outer.WellFormed) :
    inner.WellFormed := by
  induction within with
  | self => exact formed
  | deeper part outer member within ih => exact ih (part_well_formed _ _ formed member)

end Term

def Pipe.WellFormed (pipe : Pipe) : Prop :=
  Term.FormedAt 1 pipe.source ∧ ∀ stage ∈ pipe.stages, Term.FormedAt 1 stage

namespace Script

def WellFormed (script : Script) : Prop :=
  ∀ statement ∈ script.statements, statement.pipe.WellFormed

def Contains (script : Script) (term : Term) : Prop :=
  ∃ statement ∈ script.statements,
    ∃ top ∈ statement.pipe.source :: statement.pipe.stages, term.Within top

theorem contains_well_formed (script : Script) (term : Term) (formed : script.WellFormed)
    (contained : script.Contains term) : term.WellFormed := by
  obtain ⟨statement, member, top, present, within⟩ := contained
  have topFormed : top.WellFormed := by
    rcases List.mem_cons.1 present with rfl | present
    · exact (formed statement member).1.2
    · exact ((formed statement member).2 top present).2
  exact Term.within_well_formed term top within topFormed

end Script

end PipeSql
