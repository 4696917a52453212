import PipeSql.Proofs.Script.Grammar
import PipeSql.Proofs.Script.Reads
import PipeSql.Proofs.Script.Tokens

set_option autoImplicit false

namespace PipeSql

namespace Grammar

open Recognizer Token Term

variable {term : Recognizer Term}

def Closed (tokens : List Token) : Prop :=
  ∀ token, tokens.head? = some token → token.opening = 0

theorem refuses_identifier {tokens : List Token} (other : ∀ name, tokens.head? ≠ some (.ident name)) :
    Refuses identifier tokens := by
  refine refuses_labelled (refuses_spanned (refuses_next fun token head => ?_))
  split
  · exact absurd head (other _)
  · rfl

-- A name may be more than a term of its own.
def isTerminal : Token → Bool
  | .keyword word => word == .null
  | .symbol mark => mark == .star
  | .ident _ => false
  | _ => true

theorem refuses_terminal {tokens : List Token} (other : ∀ token, tokens.head? = some token → isTerminal token = false) :
    Refuses terminal tokens := by
  refine refuses_bind (refuses_spanned (refuses_next fun token head => ?_)) _
  have plain := other token head
  split <;> first | rfl | cases plain

theorem refuses_call {tokens : List Token} (other : ∀ name, tokens.head? ≠ some (.ident name)) :
    Refuses (call term) tokens :=
  refuses_bind (refuses_spanned (refuses_bind (refuses_identifier other) _)) _

theorem refuses_lambda {tokens : List Token} (other : tokens.head? ≠ some (.keyword .fn)) : Refuses (lambda term) tokens :=
  refuses_bind (refuses_spanned (refuses_bind (refuses_token other) _)) _

theorem refuses_cases {tokens : List Token} (other : tokens.head? ≠ some (.keyword .case)) : Refuses (cases term) tokens :=
  refuses_bind (refuses_spanned (refuses_bind (refuses_token other) _)) _

theorem refuses_existence {tokens : List Token} (other : tokens.head? ≠ some (.keyword .exists)) :
    Refuses (existence term) tokens :=
  refuses_bind (refuses_spanned (refuses_bind (refuses_token other) _)) _

theorem refuses_parenthesis {tokens : List Token} (other : tokens.head? ≠ some (.symbol .leftParen)) :
    Refuses (parenthesis term) tokens :=
  refuses_bind (refuses_spanned (refuses_bind (refuses_token other) _)) _

theorem closed_other {tokens : List Token} (closed : Closed tokens) {token : Token} (opens : token.opening ≠ 0) :
    tokens.head? ≠ some token :=
  fun head => opens (closed token head)

theorem refuses_primary {tokens : List Token} (closed : Closed tokens) : Refuses (primary term) tokens := by
  have name : ∀ name, tokens.head? ≠ some (.ident name) := fun _ => closed_other closed (by simp [opening])
  refine refuses_labelled (refuses_first_of fun reader member => ?_)
  simp only [List.mem_cons, List.not_mem_nil, or_false] at member
  rcases member with rfl | rfl | rfl | rfl | rfl | rfl | rfl
  · refine refuses_terminal fun token head => ?_
    have closing := closed token head
    cases token with
    | keyword word => cases word <;> first | rfl | cases closing
    | symbol mark => cases mark <;> first | rfl | cases closing
    | _ => cases closing
  · exact refuses_call name
  · exact refuses_bind (refuses_identifier name) _
  · exact refuses_lambda (closed_other closed (by decide))
  · exact refuses_cases (closed_other closed (by decide))
  · exact refuses_existence (closed_other closed (by decide))
  · exact refuses_parenthesis (closed_other closed (by decide))

theorem refuses_prefixed {op : UnaryOperator} {mark : Recognizer Unit} {operand : Recognizer Term} {tokens : List Token}
    (markRefuses : Refuses mark tokens) (refuses : Refuses operand tokens) : Refuses (prefixed op mark operand) tokens :=
  refuses_after (reads_no_more (refuses_spanned markRefuses)) fun _ _ => refuses_bind refuses _

-- Every rule begins with the next tighter one, or with a mark that begins terms.
theorem refuses_disjunction {tokens : List Token} (closed : Closed tokens) : Refuses (disjunction term) tokens := by
  have negation : Refuses (negation term) tokens :=
    refuses_prefixed (refuses_token (closed_other closed (by decide))) (refuses_primary closed)
  have sum : Refuses (sum term) tokens := refuses_bind (refuses_bind negation _) _
  have comparison : Refuses (comparison term) tokens := refuses_bind (refuses_spanned (refuses_bind sum _)) _
  have inversion : Refuses (inversion term) tokens :=
    refuses_prefixed (refuses_token (closed_other closed (by decide))) comparison
  exact refuses_bind (refuses_bind inversion _) _

theorem refuses_term {tokens : List Token} (closed : Closed tokens) (depth : Nat) :
    Refuses (Grammar.term depth) tokens := by
  cases depth with
  | zero => exact fun _ _ => rfl
  | succ depth => exact refuses_disjunction closed

def rule (term : Recognizer Term) : Nat → Recognizer Term
  | 0 | 1 => disjunction term
  | 2 => conjunction term
  | 3 => inversion term
  | 4 => comparison term
  | 5 => sum term
  | 6 => product term
  | 7 => negation term
  | _ => primary term

theorem stops_other {level : Nat} {tokens : List Token} (stops : Stops level tokens) {token : Token}
    (strong : level ≤ token.strength) : tokens.head? ≠ some token :=
  fun head => Nat.not_lt.2 strong (stops token head)

theorem reads_leftward_one {operand : Recognizer Term} {operator : Recognizer Operator} {tokens rest : List Token}
    {property : Term → Prop} (reads : Reads operand tokens rest property) (refuses : Refuses operator rest) :
    Reads (leftward operand operator) tokens rest property := by
  rw [← List.append_nil tokens]
  refine reads_bind reads fun first holds => ?_
  refine reads_map (reads_no_more (refuses_bind refuses _)) ?_
  rintro _ rfl
  exact holds

theorem reads_prefixed_none {op : UnaryOperator} {mark : Recognizer Unit} {operand : Recognizer Term}
    {tokens rest : List Token} {property : Term → Prop} (reads : Reads operand tokens rest property)
    (refuses : Refuses mark (tokens ++ rest)) : Reads (prefixed op mark operand) tokens rest property := by
  refine reads_bind (reads_no_more (refuses_spanned refuses)) ?_
  rintro _ rfl
  exact reads_map reads fun inner holds => holds

theorem reads_negated (given : Bool) {rest : List Token} (other : rest.head? ≠ some (.keyword .not)) :
    Reads negated (Token.negation given) rest (· = given) := by
  cases given with
  | false =>
    refine reads_map (reads_none (refuses_token other)) ?_
    rintro _ rfl
    rfl
  | true =>
    refine reads_map (reads_some (reads_keyword .not rest)) ?_
    rintro _ ⟨_, rfl, -⟩
    rfl

theorem refuses_comparison_operator {tokens : List Token}
    (other : ∀ mark, tokens.head? = some (.symbol mark) → (Token.symbol mark).strength ≠ 4) :
    Refuses comparisonOperator tokens := by
  refine refuses_next fun token head => ?_
  split <;> first | rfl | exact absurd rfl (other _ head)

theorem refuses_tail {rest : List Token} (stops : Stops 4 rest) : Refuses (tail term) rest := by
  have notNegated := @reads_negated false rest (stops_other stops (by decide))
  refine refuses_first_of fun reader member => ?_
  simp only [List.mem_cons, List.not_mem_nil, or_false] at member
  rcases member with rfl | rfl | rfl | rfl
  · exact refuses_bind (refuses_comparison_operator fun mark head => Nat.ne_of_lt (stops _ head)) _
  · exact refuses_bind (refuses_token (stops_other stops (by decide))) _
  · exact refuses_after notNegated fun _ _ => refuses_bind (refuses_token (stops_other stops (by decide))) _
  · exact refuses_after notNegated fun _ _ => refuses_bind (refuses_token (stops_other stops (by decide))) _

theorem reads_comparison_one {tokens rest : List Token} {property : Term → Prop}
    (reads : Reads (sum term) tokens rest property) (stops : Stops 4 rest) : Reads (comparison term) tokens rest property := by
  refine reads_spanned_bind _ (reads_without reads (refuses_tail stops)) ?_
  rintro ⟨left, tail⟩ span ⟨holds, none⟩
  dsimp only at none
  subst none
  exact reads_pure holds

theorem operator_strength (op : Operator) : op.token.strength = op.level := by
  cases op <;> rfl

-- The operators other than comparisons join the terms of the next tighter level from the left.
theorem rule_leftward (op : Operator) (joins : op.isComparison = false) : ∃ operator : Recognizer Operator,
    rule term op.level = leftward (rule term (op.level + 1)) operator ∧
      (∀ other : Operator, other.level = op.level → ∀ rest, Reads operator [other.token] rest (· = other)) ∧
      ∀ rest, Stops op.level rest → Refuses operator rest := by
  have word : ∀ (word : Keyword) (rest : List Token), Reads (do keyword word; return op) [.keyword word] rest (· = op) :=
    fun word rest => reads_map (reads_keyword word rest) fun _ _ => rfl
  cases op with
  | or =>
    refine ⟨do keyword .or; return .or, rfl, fun other same rest => ?_, fun rest stops => ?_⟩
    · cases other <;> first | exact word .or rest | cases same
    · exact refuses_bind (refuses_token (stops_other stops (by decide))) _
  | and =>
    refine ⟨do keyword .and; return .and, rfl, fun other same rest => ?_, fun rest stops => ?_⟩
    · cases other <;> first | exact word .and rest | cases same
    · exact refuses_bind (refuses_token (stops_other stops (by decide))) _
  | eq | notEq | lt | gt | ltEq | gtEq => cases joins
  | add | sub | concat =>
    refine ⟨_, rfl, fun other same rest => ?_, fun rest stops => refuses_next fun token head => ?_⟩
    · cases other <;> first | exact reads_next rfl | cases same
    · have weak := stops token head
      split <;> first | rfl | exact absurd weak (by decide)
  | mul | div | mod =>
    refine ⟨_, rfl, fun other same rest => ?_, fun rest stops => refuses_next fun token head => ?_⟩
    · cases other <;> first | exact reads_next rfl | cases same
    · have weak := stops token head
      split <;> first | rfl | exact absurd weak (by decide)

theorem reads_looser {level : Nat} (positive : 1 ≤ level) (below : level ≤ 7) {tokens rest : List Token}
    {property : Term → Prop} (opens : ∃ first others, tokens = first :: others ∧ level < first.opening)
    (stops : Stops level rest) (reads : Reads (rule term (level + 1)) tokens rest property) :
    Reads (rule term level) tokens rest property := by
  obtain ⟨first, others, rfl, tight⟩ := opens
  have other : ∀ token : Token, token.opening ≤ level → (first :: others ++ rest).head? ≠ some token := by
    rintro token loose ⟨⟩
    exact Nat.not_lt.2 loose tight
  have joined : ∀ op : Operator, op.isComparison = false → op.level = level →
      Reads (rule term level) (first :: others) rest property := by
    rintro op joins rfl
    obtain ⟨operator, same, -, refuses⟩ := rule_leftward op joins
    rw [same]
    exact reads_leftward_one reads (refuses rest stops)
  match level, positive, below with
  | 1, _, _ => exact joined .or rfl rfl
  | 2, _, _ => exact joined .and rfl rfl
  | 3, _, _ => exact reads_prefixed_none reads (refuses_token (other _ (by decide)))
  | 4, _, _ => exact reads_comparison_one reads stops
  | 5, _, _ => exact joined .add rfl rfl
  | 6, _, _ => exact joined .mul rfl rfl
  | 7, _, _ => exact reads_prefixed_none reads (refuses_token (other _ (by decide)))

-- The tokens are read as the term by the rule of each level that the term has.
def Ready (depth : Nat) (original : Term) : Prop :=
  ∀ level rest, 1 ≤ level → level ≤ original.level → Stops level rest →
    Reads (rule (Grammar.term depth) level) original.tokens rest (Recovered original)

theorem level_le (original : Term) : original.level ≤ 8 := by
  cases original with
  | binary span op left right =>
    rw [level]
    cases op <;> decide
  | unary span op operand => cases op <;> simp [level]
  | _ => simp [level]

-- Only the rule of the tightest level has to be seen to read the term.
theorem ready_of_tightest {depth : Nat} {original : Term} (formed : original.WellFormed)
    (scalar : original.isScalar = true)
    (reads : ∀ rest, Stops original.level rest →
      Reads (rule (Grammar.term depth) original.level) original.tokens rest (Recovered original)) :
    Ready depth original := by
  have bounded := level_le original
  obtain ⟨first, others, tokens, -, opens⟩ := tokens_head original formed scalar
  intro level rest positive le stops
  obtain ⟨steps, distance⟩ := Nat.exists_eq_add_of_le le
  induction steps generalizing level with
  | zero =>
    have same : original.level = level := distance
    rw [same] at reads
    exact reads rest stops
  | succ steps ih =>
    have tighter := ih (level + 1) (by omega) (by omega) (stops_mono stops (Nat.le_succ level)) (by omega)
    exact reads_looser positive (by omega) ⟨first, others, tokens, by omega⟩ stops tighter

theorem reads_shape {use : Token → Option (Span → Term)} {token : Token} {shape : Span → Term} {rest : List Token}
    {property : Term → Prop} (used : use token = some shape) (holds : ∀ span, property (shape span)) :
    Reads (do
      let (shape, span) ← spanned (accept use)
      return shape span) [token] rest property := by
  refine reads_spanned_bind _ (reads_next used) ?_
  rintro _ span rfl
  exact reads_pure (holds span)

theorem reads_identifier (name : String) (rest : List Token) :
    Reads identifier [.ident name] rest fun found => found.1 = name := by
  refine reads_labelled (reads_spanned (reads_next ?_))
  rfl

-- A name that no parenthesis follows is not called.
theorem reads_name (name : String) {rest : List Token} (stops : Stops 8 rest) :
    Reads (primary term) [.ident name] rest fun found => ∃ span, found = .ident span name := by
  have notCalled : Refuses (call term) ([.ident name] ++ rest) := by
    refine refuses_bind (refuses_spanned (refuses_after (reads_identifier name rest) fun _ _ => ?_)) _
    exact refuses_bind (refuses_token (stops_other stops (by decide))) _
  refine reads_labelled (reads_second (refuses_terminal ?_) (reads_second notCalled (reads_first ?_)))
  · rintro _ ⟨⟩
    rfl
  · refine reads_map (reads_identifier name rest) ?_
    rintro ⟨_, span⟩ rfl
    exact ⟨span, rfl⟩

def Nested (depth : Nat) (original : Term) : Prop :=
  ∀ rest, Stops 1 rest → Reads (Grammar.term depth) original.tokens rest (Recovered original)

theorem ready_nested {depth : Nat} {original : Term} (ready : Ready depth original) (positive : 1 ≤ original.level) :
    Nested (depth + 1) original :=
  fun rest stops => ready 1 rest (Nat.le_refl 1) positive stops

end Grammar

end PipeSql
