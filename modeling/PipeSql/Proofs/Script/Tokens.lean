import PipeSql.Pipeline.Expression
import PipeSql.Proofs.Script.Shape
import PipeSql.Proofs.Token.Lexed

set_option autoImplicit false

namespace PipeSql

def Operator.token : Operator → Token
  | .or => .keyword .or
  | .and => .keyword .and
  | .eq => .symbol .eq
  | .notEq => .symbol .notEq
  | .lt => .symbol .lt
  | .gt => .symbol .gt
  | .ltEq => .symbol .ltEq
  | .gtEq => .symbol .gtEq
  | .add => .symbol .plus
  | .sub => .symbol .minus
  | .mul => .symbol .star
  | .div => .symbol .slash
  | .mod => .symbol .percent
  | .concat => .symbol .concat

def Literal.token : Literal → Token
  | .str value => .str value
  | .int digits => .int digits
  | .decimal digits => .decimal digits
  | .null => .keyword .null

def Direction.keyword : Direction → Keyword
  | .ascending => .asc
  | .descending => .desc

namespace Token

-- The tightest level of a term that begins with the token; none does at level 0.
def opening : Token → Nat
  | .keyword .not => 3
  | .symbol .minus => 7
  | .keyword .null | .keyword .case | .keyword .exists | .keyword .fn => 8
  | .symbol .star | .symbol .leftParen => 8
  | .keyword _ | .symbol _ => 0
  | _ => 8

-- The level at which the token continues a term that stands before it; none goes on at level 0.
def strength : Token → Nat
  | .keyword .or => 1
  | .keyword .and => 2
  | .keyword .not | .keyword .is | .keyword .in | .keyword .like => 4
  | .symbol .eq | .symbol .eqEq | .symbol .notEq | .symbol .lt | .symbol .gt | .symbol .ltEq | .symbol .gtEq => 4
  | .symbol .plus | .symbol .minus | .symbol .concat => 5
  | .symbol .star | .symbol .slash | .symbol .percent => 6
  | .symbol .leftParen | .keyword .over => 8
  | _ => 0

def Stops (level : Nat) (tokens : List Token) : Prop :=
  ∀ token, tokens.head? = some token → token.strength < level

theorem stops_mono {level greater : Nat} {tokens : List Token} (stops : Stops level tokens) (le : level ≤ greater) :
    Stops greater tokens :=
  fun token head => Nat.lt_of_lt_of_le (stops token head) le

theorem stops_cons {level : Nat} {token : Token} (weak : token.strength < level) (rest : List Token) :
    Stops level (token :: rest) := by
  rintro _ ⟨⟩
  exact weak

def enclosed (tokens : List Token) : List Token :=
  .symbol .leftParen :: (tokens ++ [.symbol .rightParen])

def commaed : List (List Token) → List Token
  | [] => []
  | first :: rest => first ++ rest.flatMap (.symbol .comma :: ·)

theorem commaed_length (entries : List (List Token)) (entry : List Token) (member : entry ∈ entries) :
    entry.length ≤ (commaed entries).length := by
  cases entries with
  | nil => cases member
  | cons first rest =>
    rw [commaed, List.length_append]
    rcases List.mem_cons.1 member with rfl | member
    · omega
    · have listed := List.mem_map_of_mem (f := (Token.symbol .comma :: ·)) member
      have inside := (List.sublist_flatten_of_mem listed).length_le
      rw [← List.flatMap_def, List.length_cons] at inside
      omega

def negation (negated : Bool) : List Token :=
  if negated then [.keyword .not] else []

def windowPart (first : Keyword) (entries : List (List Token)) : List Token :=
  if entries.isEmpty then [] else .keyword first :: .keyword .by :: commaed entries

def window (partitionBy orderBy : List (List Token)) : List Token :=
  .keyword .over :: enclosed (windowPart .partition partitionBy ++ windowPart .order orderBy)

end Token

def CallHead.tokens (head : CallHead) (args : List (List Token)) : List Token :=
  .ident (Function.sqlName head.name) ::
    Token.enclosed ((if head.distinct then [.keyword .distinct] else []) ++ Token.commaed args)

namespace Term

mutual

def tokens : Term → List Token
  | .ident _ name => [.ident name]
  | .qualified _ parts => [.qualified parts]
  | .wildcard _ none => [.symbol .star]
  | .wildcard _ (some table) => [.tableWildcard table]
  | .param _ name => [.param name]
  | .literal _ value => [value.token]
  | .call _ head args => head.tokens (listTokens args)
  | .windowed _ head args partitionBy orderBy =>
    head.tokens (listTokens args) ++ Token.window (listTokens partitionBy) (listTokens orderBy)
  | .cases _ operand branches otherwise =>
    .keyword .case :: (optionTokens [] operand ++ branchTokens branches ++
      optionTokens [.keyword .else] otherwise ++ [.keyword .end])
  | .binary _ op left right => left.tokens ++ op.token :: right.tokens
  | .unary _ .negate operand => .symbol .minus :: operand.tokens
  | .unary _ .not operand =>
    .keyword .not :: (if operand.isBinary then Token.enclosed operand.tokens else operand.tokens)
  | .isNull _ operand negated => operand.tokens ++ .keyword .is :: (Token.negation negated ++ [.keyword .null])
  | .inList _ operand items negated =>
    operand.tokens ++ Token.negation negated ++ .keyword .in :: Token.enclosed (Token.commaed (listTokens items))
  | .like _ operand pattern negated =>
    operand.tokens ++ Token.negation negated ++ .keyword .like :: pattern.tokens
  | .paren _ inner => Token.enclosed inner.tokens
  | .aliased _ inner label => inner.tokens ++ [.keyword .as, .ident label]
  | .ordered _ inner direction => inner.tokens ++ [.keyword direction.keyword]
  | .lambda .. | .exists .. | .pipe .. | .named .. => []

def listTokens : List Term → List (List Token)
  | [] => []
  | term :: rest => term.tokens :: listTokens rest

def optionTokens (introduction : List Token) : Option Term → List Token
  | none => []
  | some term => introduction ++ term.tokens

def branchTokens : List (Term × Term) → List Token
  | [] => []
  | (condition, value) :: rest =>
    .keyword .when :: (condition.tokens ++ .keyword .then :: (value.tokens ++ branchTokens rest))

end

theorem list_tokens (terms : List Term) : listTokens terms = terms.map tokens := by
  induction terms with
  | nil => rfl
  | cons term rest ih => rw [listTokens, ih, List.map_cons]

theorem branch_tokens (branches : List (Term × Term)) :
    branchTokens branches = branches.flatMap fun branch =>
      .keyword .when :: (branch.1.tokens ++ .keyword .then :: branch.2.tokens) := by
  induction branches with
  | nil => rfl
  | cons branch rest ih => simp [branchTokens, ih]

def isNegation : Term → Bool
  | .unary _ .negate _ => true
  | _ => false

def isPlain : Term → Bool
  | .lambda .. | .exists .. | .pipe .. | .named .. => false
  | .unary _ .negate operand => !operand.isNegation
  | _ => true

-- A minus right behind a minus would begin a comment.
def isScalar (term : Term) : Bool :=
  term.isPlain && term.parts.attach.all fun part => part.1.isScalar
termination_by term.height
decreasing_by exact part_height term part.1 part.2

theorem is_scalar_iff (term : Term) :
    term.isScalar = true ↔ term.isPlain = true ∧ ∀ part ∈ term.parts, part.isScalar = true := by
  rw [isScalar]
  simp

mutual

def bare (rename : String → String) : Term → Term
  | .ident _ name => .ident ⟨0, 0⟩ name
  | .qualified _ parts => .qualified ⟨0, 0⟩ parts
  | .wildcard _ table => .wildcard ⟨0, 0⟩ table
  | .param _ name => .param ⟨0, 0⟩ name
  | .literal _ value => .literal ⟨0, 0⟩ value
  | .call _ head args => .call ⟨0, 0⟩ ⟨rename head.name, ⟨0, 0⟩, head.distinct⟩ (bareAll rename args)
  | .windowed _ head args partitionBy orderBy =>
    .windowed ⟨0, 0⟩ ⟨rename head.name, ⟨0, 0⟩, head.distinct⟩ (bareAll rename args) (bareAll rename partitionBy)
      (bareAll rename orderBy)
  | .lambda _ params body => .lambda ⟨0, 0⟩ params (body.bare rename)
  | .cases _ operand branches otherwise =>
    .cases ⟨0, 0⟩ (bareOption rename operand) (bareBranches rename branches) (bareOption rename otherwise)
  | .binary _ op left right => .binary ⟨0, 0⟩ op (left.bare rename) (right.bare rename)
  | .unary _ op operand => .unary ⟨0, 0⟩ op (operand.bare rename)
  | .isNull _ operand negated => .isNull ⟨0, 0⟩ (operand.bare rename) negated
  | .inList _ operand items negated => .inList ⟨0, 0⟩ (operand.bare rename) (bareAll rename items) negated
  | .like _ operand pattern negated => .like ⟨0, 0⟩ (operand.bare rename) (pattern.bare rename) negated
  | .exists _ source stages => .exists ⟨0, 0⟩ (source.bare rename) (bareAll rename stages)
  | .paren _ inner => inner.bare rename
  | .pipe _ source stages => .pipe ⟨0, 0⟩ (source.bare rename) (bareAll rename stages)
  | .aliased _ inner label => .aliased ⟨0, 0⟩ (inner.bare rename) label
  | .ordered _ inner direction => .ordered ⟨0, 0⟩ (inner.bare rename) direction
  | .named _ name value => .named ⟨0, 0⟩ name (value.bare rename)

def bareAll (rename : String → String) : List Term → List Term
  | [] => []
  | term :: rest => term.bare rename :: bareAll rename rest

def bareOption (rename : String → String) : Option Term → Option Term
  | none => none
  | some term => some (term.bare rename)

def bareBranches (rename : String → String) : List (Term × Term) → List (Term × Term)
  | [] => []
  | (condition, value) :: rest => (condition.bare rename, value.bare rename) :: bareBranches rename rest

end

-- Up to spans and parentheses, and with the functions called by their names in SQL.
def Recovered (original found : Term) : Prop :=
  found.bare id = original.bare Function.sqlName

theorem whole_or_argument (term : Term) : 1 ≤ term.level ∨ (∃ span inner label, term = .aliased span inner label) ∨
    (∃ span inner direction, term = .ordered span inner direction) ∨ ∃ span name value, term = .named span name value := by
  have primary : 1 ≤ 8 := by decide
  cases term with
  | aliased span inner label => exact .inr (.inl ⟨span, inner, label, rfl⟩)
  | ordered span inner direction => exact .inr (.inr (.inl ⟨span, inner, direction, rfl⟩))
  | named span name value => exact .inr (.inr (.inr ⟨span, name, value, rfl⟩))
  | binary span op left right =>
    refine .inl ?_
    rw [level]
    cases op <;> decide
  | unary span op operand =>
    cases op with
    | negate => exact .inl (by decide : 1 ≤ 7)
    | not => exact .inl (by decide : 1 ≤ 3)
  | isNull | inList | like => exact .inl (by decide : 1 ≤ 4)
  | _ => exact .inl primary

theorem scalar_part {term part : Term} (scalar : term.isScalar = true) (member : part ∈ term.parts) :
    part.isScalar = true :=
  ((is_scalar_iff term).1 scalar).2 part member

theorem tokens_head (term : Term) (formed : term.WellFormed) (scalar : term.isScalar = true) :
    ∃ first rest, term.tokens = first :: rest ∧ 1 ≤ first.opening ∧ term.level ≤ first.opening := by
  induction term using parts_induction with
  | step term ih =>
    have inner : ∀ part ∈ term.parts, ∀ more, ∃ first rest, part.tokens ++ more = first :: rest ∧
        1 ≤ first.opening ∧ part.level ≤ first.opening := by
      intro part member more
      obtain ⟨first, rest, front, opens⟩ := ih part member (part_well_formed term part formed member)
        (scalar_part scalar member)
      exact ⟨first, rest ++ more, by rw [front]; rfl, opens⟩
    have plain := ((is_scalar_iff term).1 scalar).1
    have primary : 1 ≤ 8 := by decide
    cases term with
    | ident | qualified | param | call | windowed | paren | cases => exact ⟨_, _, rfl, primary, Nat.le_refl 8⟩
    | wildcard span table => cases table <;> exact ⟨_, _, rfl, primary, Nat.le_refl 8⟩
    | literal span value => cases value <;> exact ⟨_, _, rfl, primary, Nat.le_refl 8⟩
    | binary span op left right =>
      obtain ⟨first, rest, front, opens, level⟩ := inner left (.head _) (op.token :: right.tokens)
      have tighter : op.level ≤ op.leftLevel := by cases op <;> decide
      exact ⟨first, rest, front, opens, Nat.le_trans tighter (Nat.le_trans formed.1 level)⟩
    | unary span op operand =>
      cases op with
      | negate => exact ⟨_, _, rfl, by decide, Nat.le_refl 7⟩
      | not => exact ⟨_, _, rfl, by decide, Nat.le_refl 3⟩
    | isNull span operand negated =>
      obtain ⟨first, rest, front, opens, level⟩ := inner operand (.head _) _
      exact ⟨first, rest, front, opens, Nat.le_of_succ_le (Nat.le_trans formed.1 level)⟩
    | inList span operand items negated =>
      obtain ⟨first, rest, front, opens, level⟩ := inner operand (.head _) _
      rw [← List.append_assoc] at front
      exact ⟨first, rest, front, opens, Nat.le_of_succ_le (Nat.le_trans formed.1 level)⟩
    | like span operand pattern negated =>
      obtain ⟨first, rest, front, opens, level⟩ := inner operand (.head _) _
      rw [← List.append_assoc] at front
      exact ⟨first, rest, front, opens, Nat.le_of_succ_le (Nat.le_trans formed.1 level)⟩
    | aliased span inside label | ordered span inside direction =>
      obtain ⟨first, rest, front, opens, -⟩ := inner inside (.head _) _
      exact ⟨first, rest, front, opens, Nat.zero_le _⟩
    | lambda | «exists» | pipe | named => cases plain

theorem list_tokens_length {term : Term} {terms : List Term} (member : term ∈ terms) :
    term.tokens.length ≤ (Token.commaed (listTokens terms)).length := by
  rw [list_tokens]
  exact Token.commaed_length _ _ (List.mem_map_of_mem member)

theorem branch_tokens_length {branch : Term × Term} {branches : List (Term × Term)} (member : branch ∈ branches) :
    branch.1.tokens.length ≤ (branchTokens branches).length ∧
      branch.2.tokens.length ≤ (branchTokens branches).length := by
  induction branches with
  | nil => cases member
  | cons first rest ih =>
    obtain ⟨condition, value⟩ := first
    simp only [branchTokens, List.length_cons, List.length_append]
    rcases List.mem_cons.1 member with rfl | member
    · dsimp only
      omega
    · have inside := ih member
      omega

theorem window_part_length {term : Term} {terms : List Term} (first : Keyword) (member : term ∈ terms) :
    term.tokens.length ≤ (Token.windowPart first (listTokens terms)).length := by
  have inside := list_tokens_length member
  cases terms with
  | nil => cases member
  | cons entry terms =>
    rw [listTokens] at inside ⊢
    simp only [Token.windowPart, List.isEmpty_cons, Bool.false_eq_true, if_false, List.length_cons]
    omega

theorem part_tokens {term part : Term} (plain : term.isPlain = true) (member : part ∈ term.parts) :
    part.tokens.length < term.tokens.length := by
  cases term with
  | ident | qualified | wildcard | param | literal => cases member
  | call span head args =>
    have inside : part.tokens.length ≤ (Token.commaed (listTokens args)).length := list_tokens_length member
    simp only [tokens, CallHead.tokens, Token.enclosed, List.length_cons, List.length_append]
    omega
  | windowed span head args partitionBy orderBy =>
    simp only [parts, List.mem_append] at member
    simp only [tokens, CallHead.tokens, Token.window, Token.enclosed, List.length_cons, List.length_append]
    rcases member with (member | member) | member
    · have inside := list_tokens_length member
      omega
    · have inside := window_part_length .partition member
      omega
    · have inside := window_part_length .order member
      omega
  | cases span operand branches otherwise =>
    simp only [parts, List.mem_append, List.mem_map, Option.mem_toList] at member
    simp only [tokens, List.length_cons, List.length_append]
    rcases member with ((rfl | ⟨branch, present, rfl⟩) | ⟨branch, present, rfl⟩) | rfl
    · simp only [optionTokens, List.nil_append]
      omega
    · have inside := branch_tokens_length present
      omega
    · have inside := branch_tokens_length present
      omega
    · simp only [optionTokens, List.length_append]
      omega
  | binary span op left right =>
    simp only [parts, List.mem_cons, List.not_mem_nil, or_false] at member
    simp only [tokens, List.length_append, List.length_cons]
    rcases member with rfl | rfl <;> omega
  | unary span op operand =>
    obtain rfl := List.mem_singleton.1 member
    cases op with
    | negate => simp [tokens]
    | not =>
      simp only [tokens, List.length_cons]
      split
      · simp only [Token.enclosed, List.length_cons, List.length_append]
        omega
      · omega
  | isNull span operand negated =>
    obtain rfl := List.mem_singleton.1 member
    simp only [tokens, List.length_append, List.length_cons]
    omega
  | inList span operand items negated =>
    simp only [tokens, Token.enclosed, List.length_append, List.length_cons]
    rcases List.mem_cons.1 member with rfl | member
    · omega
    · have inside := list_tokens_length member
      omega
  | like span operand pattern negated =>
    simp only [parts, List.mem_cons, List.not_mem_nil, or_false] at member
    simp only [tokens, List.length_append, List.length_cons]
    rcases member with rfl | rfl <;> omega
  | paren span inner =>
    obtain rfl := List.mem_singleton.1 member
    simp only [tokens, Token.enclosed, List.length_cons, List.length_append]
    omega
  | aliased span inner label | ordered span inner direction =>
    obtain rfl := List.mem_singleton.1 member
    simp [tokens]
  | lambda | «exists» | pipe | named => cases plain

end Term

end PipeSql
