import PipeSql.Pipeline.OfScript
import PipeSql.Proofs.Script.Shape

set_option autoImplicit false

namespace PipeSql

def Literal.mapped (contents : String → String) : Literal → Literal
  | .str value => .str (contents value)
  | other => other

def CallHead.mapped (place : Span → Span) (head : CallHead) : CallHead :=
  { head with nameSpan := place head.nameSpan }

namespace Term

mutual

-- The contents of string literals and the spans are replaced.
def mapped (contents : String → String) (place : Span → Span) : Term → Term
  | .ident span name => .ident (place span) name
  | .qualified span parts => .qualified (place span) parts
  | .wildcard span table => .wildcard (place span) table
  | .param span name => .param (place span) name
  | .literal span value => .literal (place span) (value.mapped contents)
  | .call span head args => .call (place span) (head.mapped place) (mappedAll contents place args)
  | .windowed span head args partitionBy orderBy =>
    .windowed (place span) (head.mapped place) (mappedAll contents place args)
      (mappedAll contents place partitionBy) (mappedAll contents place orderBy)
  | .lambda span params body => .lambda (place span) params (body.mapped contents place)
  | .cases span operand branches otherwise =>
    .cases (place span) (mappedOption contents place operand) (mappedBranches contents place branches)
      (mappedOption contents place otherwise)
  | .binary span op left right =>
    .binary (place span) op (left.mapped contents place) (right.mapped contents place)
  | .unary span op operand => .unary (place span) op (operand.mapped contents place)
  | .isNull span operand negated => .isNull (place span) (operand.mapped contents place) negated
  | .inList span operand items negated =>
    .inList (place span) (operand.mapped contents place) (mappedAll contents place items) negated
  | .like span operand pattern negated =>
    .like (place span) (operand.mapped contents place) (pattern.mapped contents place) negated
  | .exists span source stages =>
    .exists (place span) (source.mapped contents place) (mappedAll contents place stages)
  | .paren span inner => .paren (place span) (inner.mapped contents place)
  | .pipe span source stages =>
    .pipe (place span) (source.mapped contents place) (mappedAll contents place stages)
  | .aliased span inner label => .aliased (place span) (inner.mapped contents place) label
  | .ordered span inner direction => .ordered (place span) (inner.mapped contents place) direction
  | .named span name value => .named (place span) name (value.mapped contents place)

def mappedAll (contents : String → String) (place : Span → Span) : List Term → List Term
  | [] => []
  | term :: rest => term.mapped contents place :: mappedAll contents place rest

def mappedOption (contents : String → String) (place : Span → Span) : Option Term → Option Term
  | none => none
  | some term => some (term.mapped contents place)

def mappedBranches (contents : String → String) (place : Span → Span) :
    List (Term × Term) → List (Term × Term)
  | [] => []
  | (condition, value) :: rest =>
    (condition.mapped contents place, value.mapped contents place) :: mappedBranches contents place rest

end

end Term

def Pipe.mapped (contents : String → String) (place : Span → Span) (pipe : Pipe) : Pipe :=
  ⟨pipe.source.mapped contents place, Term.mappedAll contents place pipe.stages⟩

def ScriptStatement.mapped (contents : String → String) (place : Span → Span) : ScriptStatement → ScriptStatement
  | .bind name span value => .bind name (place span) (value.mapped contents place)
  | .query value => .query (value.mapped contents place)

def Script.mapped (contents : String → String) (place : Span → Span) (script : Script) : Script :=
  ⟨script.first.mapped contents place, script.others.map (ScriptStatement.mapped contents place)⟩

def Stage.mapped (contents : String → String) (place : Span → Span) (stage : Stage) : Stage :=
  ⟨place stage.span, stage.name, place stage.nameSpan, Term.mappedAll contents place stage.args⟩

namespace Term

variable (contents : String → String) (place : Span → Span)

theorem mapped_all (terms : List Term) : mappedAll contents place terms = terms.map (mapped contents place) := by
  induction terms with
  | nil => rfl
  | cons term rest ih => rw [mappedAll, ih, List.map_cons]

theorem mapped_branches (branches : List (Term × Term)) :
    mappedBranches contents place branches =
      branches.map fun branch => (branch.1.mapped contents place, branch.2.mapped contents place) := by
  induction branches with
  | nil => rfl
  | cons branch rest ih => rw [mappedBranches, ih, List.map_cons]

mutual

theorem mapped_height : (term : Term) → (term.mapped contents place).height = term.height
  | .ident .. | .qualified .. | .wildcard .. | .param .. | .literal .. => rfl
  | .call _ _ args => by simp only [mapped, height, mapped_heights args]
  | .windowed _ _ args partitionBy orderBy => by
    simp only [mapped, height, mapped_heights args, mapped_heights partitionBy, mapped_heights orderBy]
  | .cases _ operand branches otherwise => by
    simp only [mapped, height, mapped_option_height operand, mapped_branch_heights branches,
      mapped_option_height otherwise]
  | .binary _ _ left right | .like _ left right _ => by
    simp only [mapped, height, mapped_height left, mapped_height right]
  | .inList _ first rest _ | .exists _ first rest | .pipe _ first rest => by
    simp only [mapped, height, mapped_height first, mapped_heights rest]
  | .lambda _ _ inner | .unary _ _ inner | .isNull _ inner _ | .paren _ inner | .aliased _ inner _
  | .ordered _ inner _ | .named _ _ inner => by simp only [mapped, height, mapped_height inner]

theorem mapped_heights : (terms : List Term) → heights (mappedAll contents place terms) = heights terms
  | [] => rfl
  | term :: rest => by simp only [mappedAll, heights, mapped_height term, mapped_heights rest]

theorem mapped_option_height : (term : Option Term) → optionHeight (mappedOption contents place term) = optionHeight term
  | none => rfl
  | some term => by simp only [mappedOption, optionHeight, mapped_height term]

theorem mapped_branch_heights :
    (branches : List (Term × Term)) → branchHeights (mappedBranches contents place branches) = branchHeights branches
  | [] => rfl
  | (condition, value) :: rest => by
    simp only [mappedBranches, branchHeights, mapped_height condition, mapped_height value, mapped_branch_heights rest]

end

theorem mapped_level (term : Term) : (term.mapped contents place).level = term.level := by
  cases term with
  | unary span op operand => cases op <;> rfl
  | _ => rfl

theorem mapped_sort_key (term : Term) : (term.mapped contents place).isSortKey = term.isSortKey := by
  cases term with
  | ordered span inner direction => simp only [mapped, isSortKey, mapped_level]
  | unary span op operand => cases op <;> rfl
  | _ => rfl

theorem mapped_aliased (term : Term) : (term.mapped contents place).isAliased = term.isAliased := by
  cases term <;> rfl

theorem mapped_named (term : Term) : (term.mapped contents place).isNamed = term.isNamed := by
  cases term <;> rfl

theorem mapped_binary (term : Term) : (term.mapped contents place).isBinary = term.isBinary := by
  cases term <;> rfl

theorem mapped_parens (op : Operator) (term : Term) (onRight : Bool) :
    needsParens op (term.mapped contents place) onRight = needsParens op term onRight := by
  cases term <;> rfl

theorem mapped_number : (term : Term) → (term.mapped contents place).isNumber = term.isNumber
  | .literal _ value => by cases value <;> rfl
  | .unary _ .negate operand => mapped_number operand
  | .unary _ .not _ | .ident .. | .qualified .. | .wildcard .. | .param .. | .call .. | .windowed .. | .lambda ..
  | .cases .. | .binary .. | .isNull .. | .inList .. | .like .. | .exists .. | .paren .. | .pipe .. | .aliased ..
  | .ordered .. | .named .. => rfl

mutual

theorem mapped_well_formed : (term : Term) → ((term.mapped contents place).WellFormed ↔ term.WellFormed)
  | .ident .. | .qualified .. | .param .. => Iff.rfl
  | .wildcard _ none | .wildcard _ (some _) => Iff.rfl
  | .literal _ value => by cases value <;> rfl
  | .call _ head args => by simp only [mapped, WellFormed, CallHead.mapped, mapped_formed 0 args]
  | .windowed _ head args partitionBy orderBy => by
    simp only [mapped, WellFormed, CallHead.mapped, mapped_formed 0 args, mapped_formed 1 partitionBy,
      mapped_formed 0 orderBy]
    simp only [mapped_all, List.forall_mem_map, mapped_sort_key]
  | .lambda _ params body => by
    simp only [mapped, WellFormed, mapped_level, mapped_well_formed body]
  | .cases _ operand branches otherwise => by
    simp only [mapped, WellFormed, mapped_option_formed operand, mapped_branches_formed branches,
      mapped_option_formed otherwise]
    simp only [mapped_branches, ne_eq, List.map_eq_nil_iff]
  | .binary _ op left right => by
    simp only [mapped, WellFormed, mapped_level, mapped_well_formed left, mapped_well_formed right]
  | .unary _ op operand => by
    cases op <;> simp only [mapped, WellFormed, mapped_level, mapped_well_formed operand]
  | .isNull _ operand _ => by simp only [mapped, WellFormed, mapped_level, mapped_well_formed operand]
  | .inList _ operand items _ => by
    simp only [mapped, WellFormed, mapped_level, mapped_well_formed operand, mapped_formed 1 items]
  | .like _ operand pattern _ => by
    simp only [mapped, WellFormed, mapped_level, mapped_well_formed operand, mapped_well_formed pattern]
  | .exists _ source stages => by
    simp only [mapped, WellFormed, mapped_level, mapped_well_formed source, mapped_formed 1 stages]
  | .paren _ inner => by simp only [mapped, WellFormed, mapped_level, mapped_well_formed inner]
  | .pipe _ source stages => by
    simp only [mapped, WellFormed, mapped_level, mapped_well_formed source, mapped_formed 1 stages]
    simp only [mapped_all, ne_eq, List.map_eq_nil_iff]
  | .aliased _ inner label => by simp only [mapped, WellFormed, mapped_level, mapped_well_formed inner]
  | .ordered _ inner direction => by
    simp only [mapped, WellFormed, mapped_level, mapped_aliased, mapped_well_formed inner]
  | .named _ name value => by simp only [mapped, WellFormed, mapped_level, mapped_well_formed value]

theorem mapped_formed (least : Nat) :
    (terms : List Term) → (Formed least (mappedAll contents place terms) ↔ Formed least terms)
  | [] => Iff.rfl
  | term :: rest => by
    simp only [mappedAll, Formed, mapped_level, mapped_well_formed term, mapped_formed least rest]

theorem mapped_option_formed :
    (term : Option Term) → (OptionFormed (mappedOption contents place term) ↔ OptionFormed term)
  | none => Iff.rfl
  | some term => by simp only [mappedOption, OptionFormed, mapped_level, mapped_well_formed term]

theorem mapped_branches_formed :
    (branches : List (Term × Term)) → (BranchesFormed (mappedBranches contents place branches) ↔ BranchesFormed branches)
  | [] => Iff.rfl
  | (condition, value) :: rest => by
    simp only [mappedBranches, BranchesFormed, mapped_level, mapped_well_formed condition, mapped_well_formed value,
      mapped_branches_formed rest]

end

mutual

theorem mapped_id : (term : Term) → term.mapped id id = term
  | .ident .. | .qualified .. | .wildcard .. | .param .. => rfl
  | .literal _ value => by cases value <;> rfl
  | .call _ _ args => by simp only [mapped, CallHead.mapped, mapped_all_id args, id]
  | .windowed _ _ args partitionBy orderBy => by
    simp only [mapped, CallHead.mapped, mapped_all_id args, mapped_all_id partitionBy, mapped_all_id orderBy, id]
  | .cases _ operand branches otherwise => by
    simp only [mapped, mapped_option_id operand, mapped_branches_id branches, mapped_option_id otherwise, id]
  | .binary _ _ left right | .like _ left right _ => by simp only [mapped, mapped_id left, mapped_id right, id]
  | .inList _ first rest _ | .exists _ first rest | .pipe _ first rest => by
    simp only [mapped, mapped_id first, mapped_all_id rest, id]
  | .lambda _ _ inner | .unary _ _ inner | .isNull _ inner _ | .paren _ inner | .aliased _ inner _
  | .ordered _ inner _ | .named _ _ inner => by simp only [mapped, mapped_id inner, id]

theorem mapped_all_id : (terms : List Term) → mappedAll id id terms = terms
  | [] => rfl
  | term :: rest => by simp only [mappedAll, mapped_id term, mapped_all_id rest]

theorem mapped_option_id : (term : Option Term) → mappedOption id id term = term
  | none => rfl
  | some term => by simp only [mappedOption, mapped_id term]

theorem mapped_branches_id : (branches : List (Term × Term)) → mappedBranches id id branches = branches
  | [] => rfl
  | (condition, value) :: rest => by
    simp only [mappedBranches, mapped_id condition, mapped_id value, mapped_branches_id rest]

end

end Term

end PipeSql
