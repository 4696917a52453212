import PipeSql.Proofs.Script.Primaries

set_option autoImplicit false

namespace PipeSql

namespace Grammar

open Recognizer Token Term

variable {term : Recognizer Term}

theorem reads_compare_tail {op : Operator} (comparison : op.isComparison = true) {right : Term} {rest : List Token}
    (reads : Reads (sum term) right.tokens rest (Recovered right)) :
    Reads (tail term) (op.token :: right.tokens) rest fun found =>
      ∃ inside, found = .compare op inside ∧ Recovered right inside := by
  have operator : ∀ following, Reads comparisonOperator [op.token] following (· = op) := by
    intro following
    cases op <;> first | exact reads_next rfl | cases comparison
  refine reads_first (reads_bind (operator _) ?_)
  rintro _ rfl
  exact reads_map reads fun inside recovered => ⟨inside, rfl, recovered⟩

theorem reads_null_tail (given : Bool) (rest : List Token) :
    Reads (tail term) (.keyword .is :: (Token.negation given ++ [.keyword .null])) rest (· = .isNull given) := by
  refine reads_second (refuses_bind (refuses_comparison_operator (by simp)) _) (reads_first ?_)
  refine reads_bind (reads_keyword .is _) fun _ _ => ?_
  refine reads_bind (reads_negated given (by simp)) ?_
  rintro _ rfl
  exact reads_map (reads_keyword .null rest) fun _ _ => rfl

-- A negated predicate begins with NOT, so the other tails are refused only behind it.
theorem refuses_before_predicate (given : Bool) {rest : List Token} {word : Keyword} (other : word ≠ .is) :
    Refuses comparisonOperator (Token.negation given ++ .keyword word :: rest) ∧
      Refuses (keyword .is) (Token.negation given ++ .keyword word :: rest) := by
  cases given with
  | true => exact ⟨refuses_comparison_operator nofun, refuses_token (by simp [Token.negation])⟩
  | false => exact ⟨refuses_comparison_operator nofun, refuses_token (by simpa [Token.negation] using other)⟩

theorem reads_list_tail {depth : Nat} (given : Bool) {items : List Term} (nested : ∀ item ∈ items, Nested depth item)
    (rest : List Token) :
    Reads (tail (Grammar.term depth)) (Token.negation given ++ .keyword .in :: enclosed (commaed (listTokens items))) rest
      fun found => ∃ entries, found = .inList given entries ∧ List.Forall₂ Recovered items entries := by
  have each : ∀ item ∈ items, ∀ following, Ends following →
      Reads (listEntry (Grammar.term depth)) item.tokens following (Recovered item) :=
    fun item member following ends => reads_list_entry (nested item member) ends
  have closed : Closed (.symbol .rightParen :: rest) := closed_cons rfl rest
  have listed := reads_separated_or_none items each (fun _ => .inl rfl) (.inr rfl) (by simp)
    (refuses_bind (refuses_bind (refuses_term closed depth) _) _)
  obtain ⟨notCompared, notNull⟩ :=
    @refuses_before_predicate given (enclosed (commaed (listTokens items)) ++ rest) .in nofun
  refine reads_second (refuses_bind (by simpa using notCompared) _) ?_
  refine reads_second (refuses_bind (by simpa using notNull) _) (reads_first ?_)
  refine reads_bind (reads_negated given (by simp)) ?_
  rintro _ rfl
  rw [enclosed, list_tokens]
  refine reads_bind (reads_keyword .in _) fun _ _ => ?_
  refine reads_bind (reads_labelled (reads_symbol .leftParen _)) fun _ _ => ?_
  refine reads_bind listed fun entries recovered => ?_
  exact reads_map (reads_labelled (reads_symbol .rightParen rest)) fun _ _ => ⟨entries, rfl, recovered⟩

theorem reads_like_tail (given : Bool) {pattern : Term} {rest : List Token}
    (reads : Reads (sum term) pattern.tokens rest (Recovered pattern)) :
    Reads (tail term) (Token.negation given ++ .keyword .like :: pattern.tokens) rest fun found =>
      ∃ inside, found = .like given inside ∧ Recovered pattern inside := by
  obtain ⟨notCompared, notNull⟩ := @refuses_before_predicate given (pattern.tokens ++ rest) .like nofun
  have mark : ∀ following : List Token, (Token.keyword .like :: following).head? ≠ some (.keyword .not) := nofun
  have notListed : Refuses (do
      let negated ← negated
      keyword .in
      labelled "'(' after IN" (symbol .leftParen)
      let items ← separatedOrNone (listEntry term) comma
      labelled "')' to close IN list" (symbol .rightParen)
      return Tail.inList negated items) (Token.negation given ++ .keyword .like :: pattern.tokens ++ rest) := by
    rw [List.append_assoc]
    exact refuses_after (reads_negated given (mark _)) fun _ _ => refuses_bind (refuses_token (by simp)) _
  refine reads_second (refuses_bind (by simpa using notCompared) _) ?_
  refine reads_second (refuses_bind (by simpa using notNull) _) (reads_second notListed (reads_first ?_))
  refine reads_bind (reads_negated given (mark _)) ?_
  rintro _ rfl
  refine reads_bind (reads_keyword .like _) fun _ _ => ?_
  exact reads_map reads fun inside recovered => ⟨inside, rfl, recovered⟩

theorem reads_compared {left : Term} {tailTokens rest : List Token} {property : Tail → Prop}
    (reads : Reads (sum term) left.tokens (tailTokens ++ rest) (Recovered left))
    (tailReads : Reads (tail term) tailTokens rest property) :
    Reads (comparison term) (left.tokens ++ tailTokens) rest fun found =>
      ∃ span inside tail, Recovered left inside ∧ property tail ∧ found = tail.attach span inside := by
  refine reads_spanned_bind _ (reads_with reads tailReads) ?_
  rintro ⟨inside, _⟩ span ⟨recovered, tail, found, holds⟩
  dsimp only at found
  subst found
  exact reads_pure ⟨span, inside, tail, recovered, holds, rfl⟩

-- One mark more in front of what an operator reads.
theorem reads_mark {op : UnaryOperator} {mark : Token} {operand : Recognizer Term} {tokens rest : List Token}
    {property : Term → Prop} (reads : Reads (prefixed op (Recognizer.token mark) operand) tokens rest property) :
    Reads (prefixed op (Recognizer.token mark) operand) (mark :: tokens) rest fun found =>
      ∃ span inside, found = .unary span op inside ∧ property inside := by
  rintro ⟨index, offset, ahead⟩ same
  cases ahead with
  | nil => cases same
  | cons lexeme ahead =>
    obtain ⟨marked, left⟩ := List.cons.inj same
    -- What is read behind the mark is taken apart into its marks and the operand, and put together again.
    obtain ⟨value, behind, result, remaining, holds⟩ := reads ⟨index + 1, lexeme.span.stop, ahead⟩ left
    rw [prefixed, bind_result] at result
    obtain ⟨⟨marks, between⟩, marksRead, result⟩ := Option.bind_eq_some_iff.1 result
    rw [bind_result] at result
    obtain ⟨⟨inner, last⟩, innerRead, result⟩ := Option.bind_eq_some_iff.1 result
    cases result
    have first : ∃ span, (spanned (Recognizer.token mark) ⟨index, offset, lexeme :: ahead⟩).result =
        some (((), span), ⟨index + 1, lexeme.span.stop, ahead⟩) := by
      simp [spanned, Recognizer.token, next, marked]
    obtain ⟨span, first⟩ := first
    exact ⟨_, last, (bind_found (many_more first rfl marksRead) _).trans (bind_found innerRead _), remaining, _, _, rfl,
      holds⟩

-- A term as a first operand and the others, joined to it from the left by operators of one level.
inductive Chain (level : Nat) : Term → Term → List (Operator × Term) → Prop where
  | single (first : Term) : Chain level first first []
  | joined (span : Span) (op : Operator) (left right first : Term) (others : List (Operator × Term))
      (same : op.level = level) (chain : Chain level left first others) :
      Chain level (.binary span op left right) first (others ++ [(op, right)])

section

variable {level : Nat} {original first : Term} {others : List (Operator × Term)}

theorem chain_tokens (chain : Chain level original first others) :
    original.tokens = first.tokens ++ others.flatMap fun other => other.1.token :: other.2.tokens := by
  induction chain with
  | single => simp
  | joined span op left right first others same chain ih => simp [tokens, ih]

theorem chain_bare (chain : Chain level original first others) (rename : String → String) :
    (others.foldl (fun left (op, right) => .joined op left right) first).bare rename = original.bare rename := by
  induction chain with
  | single => rfl
  | joined span op left right first others same chain ih =>
    rw [List.foldl_append, List.foldl_cons, List.foldl_nil, bare, ← ih]
    rfl

theorem chain_recovered (chain : Chain level original first others) {foundFirst : Term}
    {foundOthers : List (Operator × Term)} (firstRecovered : Recovered first foundFirst)
    (othersRecovered : List.Forall₂ (fun other found => found.1 = other.1 ∧ Recovered other.2 found.2) others foundOthers) :
    Recovered original (foundOthers.foldl (fun left (op, right) => .joined op left right) foundFirst) := by
  have folded : Recovered (others.foldl (fun left (op, right) => .joined op left right) first)
      (foundOthers.foldl (fun left (op, right) => .joined op left right) foundFirst) := by
    refine List.rel_foldl ?_ firstRecovered othersRecovered
    rintro left foundLeft leftRecovered ⟨op, right⟩ ⟨_, foundRight⟩ ⟨rfl, rightRecovered⟩
    exact congrArg₂ (Term.binary ⟨0, 0⟩ _) leftRecovered rightRecovered
  exact folded.trans (chain_bare chain Function.sqlName)

-- The pieces of a chain are tighter than its operators and shorter than the term.
theorem chain_pieces (chain : Chain level original first others) (formed : original.WellFormed)
    (scalar : original.isScalar = true) :
    (first.WellFormed ∧ first.isScalar = true ∧ first.tokens.length ≤ original.tokens.length) ∧
      ∀ other ∈ others, other.1.level = level ∧ level < other.2.level ∧ other.2.WellFormed ∧
        other.2.isScalar = true ∧ other.2.tokens.length < original.tokens.length := by
  induction chain with
  | single => exact ⟨⟨formed, scalar, Nat.le_refl _⟩, nofun⟩
  | joined span op left right first others same chain ih =>
    have leftScalar := scalar_part scalar (.head _)
    have rightScalar := scalar_part scalar (.tail _ (.head _))
    have leftShorter := @part_tokens (.binary span op left right) left rfl (.head _)
    have rightShorter := @part_tokens (.binary span op left right) right rfl (.tail _ (.head _))
    obtain ⟨⟨firstFormed, firstScalar, firstShort⟩, each⟩ := ih formed.2.2.1 leftScalar
    refine ⟨⟨firstFormed, firstScalar, by omega⟩, fun other member => ?_⟩
    rcases List.mem_append.1 member with member | last
    · obtain ⟨sameLevel, tight, otherFormed, otherScalar, short⟩ := each other member
      exact ⟨sameLevel, tight, otherFormed, otherScalar, by omega⟩
    · obtain rfl := List.mem_singleton.1 last
      exact ⟨same, same ▸ formed.2.1, formed.2.2.2, rightScalar, rightShorter⟩

end

theorem comparison_level (op : Operator) : op.isComparison = decide (op.level = 4) := by
  cases op <;> rfl

theorem joining_level (op : Operator) (joins : op.isComparison = false) :
    op.level = 1 ∨ op.level = 2 ∨ op.level = 5 ∨ op.level = 6 := by
  revert joins
  cases op <;> decide

theorem exists_chain (op : Operator) (joins : op.isComparison = false) (original : Term) (formed : original.WellFormed)
    (loose : op.level ≤ original.level) :
    ∃ first others, Chain op.level original first others ∧ op.level < first.level := by
  have levels := joining_level op joins
  induction original using parts_induction with
  | step original ih =>
    by_cases tight : op.level < original.level
    · exact ⟨original, [], .single original, tight⟩
    · -- Only binary terms are of the level of an operator that joins.
      have same : original.level = op.level := by omega
      cases original with
      | binary span joining left right =>
        change joining.level = op.level at same
        have joins : joining.isComparison = false := by rw [comparison_level, same, ← comparison_level, joins]
        have leftLevel := formed.1
        rw [Operator.leftLevel, joins, if_neg nofun, same] at leftLevel
        obtain ⟨first, others, chain, tight⟩ := ih left (.head _) formed.2.2.1 leftLevel
        exact ⟨first, others ++ [(joining, right)], .joined span joining left right first others same chain, tight⟩
      | unary span sign operand =>
        rw [← same] at levels
        cases sign <;> simp [level] at levels
      | _ =>
        rw [← same] at levels
        simp [level] at levels

theorem reads_chain {operand : Recognizer Term} {operator : Recognizer Operator} {level : Nat} {original first : Term}
    {others : List (Operator × Term)} (chain : Chain level original first others) {rest : List Token}
    (firstReads : ∀ following, Stops (level + 1) following → Reads operand first.tokens following (Recovered first))
    (otherReads : ∀ other ∈ others, ∀ following, Stops (level + 1) following →
      Reads operand other.2.tokens following (Recovered other.2))
    (levels : ∀ other ∈ others, other.1.level = level)
    (operatorReads : ∀ op : Operator, op.level = level → ∀ following, Reads operator [op.token] following (· = op))
    (stops : Stops level rest) (refuses : Refuses operator rest) :
    Reads (leftward operand operator) original.tokens rest (Recovered original) := by
  have each : ∀ other ∈ others, ∀ following, Stops (level + 1) following →
      Reads (do return (← operator, ← operand)) (other.1.token :: other.2.tokens) following
        fun found => found.1 = other.1 ∧ Recovered other.2 found.2 := by
    intro other member following follows
    refine reads_bind (operatorReads other.1 (levels other member) _) ?_
    rintro _ rfl
    exact reads_map (otherReads other member following follows) fun _ recovered => ⟨rfl, recovered⟩
  have between : ∀ other ∈ others, ∀ more, Stops (level + 1) (other.1.token :: other.2.tokens ++ more) := by
    intro other member more
    refine stops_cons ?_ _
    rw [operator_strength, levels other member]
    exact Nat.lt_succ_self level
  have behind : Stops (level + 1) rest := stops_mono stops (Nat.le_succ level)
  have several := reads_many others each between (fun _ _ => List.cons_ne_nil _ _) behind (refuses_bind refuses _)
  have following : Stops (level + 1) ((others.flatMap fun other => other.1.token :: other.2.tokens) ++ rest) := by
    cases others with
    | nil => exact behind
    | cons other others =>
      rw [List.flatMap_cons, List.append_assoc]
      exact between other (.head _) _
  rw [chain_tokens chain]
  refine reads_bind (firstReads _ following) fun foundFirst firstRecovered => ?_
  exact reads_map several fun foundOthers othersRecovered => chain_recovered chain firstRecovered othersRecovered

def ReadyBelow (depth size : Nat) : Prop :=
  ∀ part : Term, part.tokens.length < size → part.WellFormed → part.isScalar = true → Ready depth part

section

variable {depth : Nat} {span : Span}

theorem reads_joined {op : Operator} {left right : Term} (joins : op.isComparison = false)
    (formed : (Term.binary span op left right).WellFormed) (scalar : (Term.binary span op left right).isScalar = true)
    (ready : ReadyBelow depth (Term.binary span op left right).tokens.length) {rest : List Token}
    (stops : Stops op.level rest) :
    Reads (rule (Grammar.term depth) op.level) (Term.binary span op left right).tokens rest
      (Recovered (.binary span op left right)) := by
  have leftLevel := formed.1
  rw [Operator.leftLevel, joins, if_neg nofun] at leftLevel
  obtain ⟨first, others, leftChain, tight⟩ := exists_chain op joins left formed.2.2.1 leftLevel
  obtain ⟨⟨firstFormed, firstScalar, short⟩, -⟩ := chain_pieces leftChain formed.2.2.1 (scalar_part scalar (.head _))
  have leftShorter := @part_tokens (.binary span op left right) left rfl (.head _)
  have chain := Chain.joined span op left right first others rfl leftChain
  obtain ⟨-, pieces⟩ := chain_pieces chain formed scalar
  obtain ⟨operator, same, operatorReads, refuses⟩ := @rule_leftward (Grammar.term depth) op joins
  rw [same]
  refine reads_chain chain (fun following follows => ?_) (fun other member following follows => ?_)
    (fun other member => (pieces other member).1) operatorReads stops (refuses rest stops)
  · exact ready first (by omega) firstFormed firstScalar _ following (by omega) tight follows
  · obtain ⟨-, otherTight, otherFormed, otherScalar, shorter⟩ := pieces other member
    exact ready other.2 shorter otherFormed otherScalar _ following (by omega) otherTight follows

theorem reads_unary {op : UnaryOperator} {operand : Term} (formed : (Term.unary span op operand).WellFormed)
    (scalar : (Term.unary span op operand).isScalar = true)
    (ready : ReadyBelow depth (Term.unary span op operand).tokens.length) {rest : List Token}
    (stops : Stops (Term.unary span op operand).level rest) :
    Reads (rule (Grammar.term depth) (Term.unary span op operand).level) (Term.unary span op operand).tokens rest
      (Recovered (.unary span op operand)) := by
  have operandScalar := scalar_part scalar (.head _)
  have marked : ∀ found, (∃ place inside, found = .unary place op inside ∧ Recovered operand inside) →
      Recovered (.unary span op operand) found := by
    rintro _ ⟨place, inside, rfl, recovered⟩
    exact congrArg (Term.unary ⟨0, 0⟩ op) recovered
  cases op with
  | negate =>
    have read := ready operand (Nat.lt_succ_self _) formed.2 operandScalar 7 rest (by decide) formed.1 stops
    exact reads_mono (reads_mark read) marked
  | not =>
    -- A binary operand stands in parentheses, which are no part of the term.
    by_cases binary : operand.isBinary = true
    · have shape : (Term.unary span .not operand).tokens = .keyword .not :: (Term.paren ⟨0, 0⟩ operand).tokens := by
        rw [tokens, if_pos binary, tokens]
      have parenFormed : (Term.paren ⟨0, 0⟩ operand).WellFormed :=
        ⟨Nat.le_of_succ_le (Nat.le_of_succ_le formed.1), formed.2⟩
      have parenScalar : (Term.paren ⟨0, 0⟩ operand).isScalar = true := by
        refine (is_scalar_iff _).2 ⟨rfl, fun part member => ?_⟩
        rw [List.mem_singleton.1 member]
        exact operandScalar
      rw [shape] at ready ⊢
      have read := ready _ (Nat.lt_succ_self _) parenFormed parenScalar 3 rest (by decide) (by decide : 3 ≤ 8) stops
      exact reads_mono (reads_mark read) marked
    · have shape : (Term.unary span .not operand).tokens = .keyword .not :: operand.tokens := by
        rw [tokens, if_neg binary]
      rw [shape] at ready ⊢
      have read := ready operand (Nat.lt_succ_self _) formed.2 operandScalar 3 rest (by decide) formed.1 stops
      exact reads_mono (reads_mark read) marked

theorem reads_comparison {op : Operator} {left right : Term} (comparison : op.isComparison = true)
    (formed : (Term.binary span op left right).WellFormed) (scalar : (Term.binary span op left right).isScalar = true)
    (ready : ReadyBelow depth (Term.binary span op left right).tokens.length) {rest : List Token} (stops : Stops 4 rest) :
    Reads (Grammar.comparison (Grammar.term depth)) (Term.binary span op left right).tokens rest
      (Recovered (.binary span op left right)) := by
  have four : op.level = 4 := of_decide_eq_true (comparison_level op ▸ comparison)
  have leftLevel := formed.1
  rw [Operator.leftLevel, if_pos comparison] at leftLevel
  have rightLevel := formed.2.1
  rw [four] at rightLevel
  have leftShorter := @part_tokens (.binary span op left right) left rfl (.head _)
  have rightShorter := @part_tokens (.binary span op left right) right rfl (.tail _ (.head _))
  have mark : Stops 5 (op.token :: right.tokens ++ rest) := by
    refine stops_cons ?_ _
    rw [operator_strength, four]
    decide
  have readLeft := ready left leftShorter formed.2.2.1 (scalar_part scalar (.head _)) 5 _ (by decide) leftLevel mark
  have readRight := ready right rightShorter formed.2.2.2 (scalar_part scalar (.tail _ (.head _))) 5 rest (by decide)
    rightLevel (stops_mono stops (by decide))
  refine reads_mono (reads_compared readLeft (reads_compare_tail comparison readRight)) ?_
  rintro _ ⟨place, inside, _, leftRecovered, ⟨other, rfl, rightRecovered⟩, rfl⟩
  exact congrArg₂ (Term.binary ⟨0, 0⟩ op) leftRecovered rightRecovered

theorem reads_is_null {operand : Term} {given : Bool} (formed : (Term.isNull span operand given).WellFormed)
    (scalar : (Term.isNull span operand given).isScalar = true)
    (ready : ReadyBelow depth (Term.isNull span operand given).tokens.length) (rest : List Token) :
    Reads (comparison (Grammar.term depth)) (Term.isNull span operand given).tokens rest
      (Recovered (.isNull span operand given)) := by
  have shorter := @part_tokens (.isNull span operand given) operand rfl (.head _)
  have follows : Stops 5 (.keyword .is :: (Token.negation given ++ [.keyword .null]) ++ rest) := stops_cons (by decide) _
  have read := ready operand shorter formed.2 (scalar_part scalar (.head _)) 5 _ (by decide) formed.1 follows
  refine reads_mono (reads_compared read (reads_null_tail given rest)) ?_
  rintro _ ⟨place, inside, _, recovered, rfl, rfl⟩
  exact congrArg (Term.isNull ⟨0, 0⟩ · given) recovered

theorem stops_predicate (given : Bool) {word : Keyword} (weak : (Token.keyword word).strength < 5)
    (more rest : List Token) : Stops 5 (Token.negation given ++ .keyword word :: more ++ rest) := by
  cases given with
  | false => exact stops_cons weak _
  | true => exact stops_cons (by decide) _

theorem reads_in_list {operand : Term} {items : List Term} {given : Bool}
    (formed : (Term.inList span operand items given).WellFormed)
    (scalar : (Term.inList span operand items given).isScalar = true)
    (below : NestedBelow depth (Term.inList span operand items given).tokens.length)
    (ready : ReadyBelow depth (Term.inList span operand items given).tokens.length) (rest : List Token) :
    Reads (comparison (Grammar.term depth)) (Term.inList span operand items given).tokens rest
      (Recovered (.inList span operand items given)) := by
  have shorter : ∀ part ∈ operand :: items, part.tokens.length < (Term.inList span operand items given).tokens.length :=
    fun part member => part_tokens rfl member
  have nested : ∀ item ∈ items, Nested depth item := by
    intro item member
    obtain ⟨whole, itemFormed⟩ := (formed_iff 1 items).1 formed.2.2 item member
    exact below item (shorter item (.tail _ member)) itemFormed (scalar_part scalar (.tail _ member)) whole
  have follows := stops_predicate given (by decide : (Token.keyword .in).strength < 5)
    (enclosed (commaed (listTokens items))) rest
  have read := ready operand (shorter operand (.head _)) formed.2.1 (scalar_part scalar (.head _)) 5 _ (by decide)
    formed.1 follows
  rw [tokens, List.append_assoc]
  refine reads_mono (reads_compared read (reads_list_tail given nested rest)) ?_
  rintro _ ⟨place, inside, _, recovered, ⟨entries, rfl, entriesRecovered⟩, rfl⟩
  exact congrArg₂ (Term.inList ⟨0, 0⟩ · · given) recovered (recovered_all entriesRecovered)

theorem reads_like {operand pattern : Term} {given : Bool} (formed : (Term.like span operand pattern given).WellFormed)
    (scalar : (Term.like span operand pattern given).isScalar = true)
    (ready : ReadyBelow depth (Term.like span operand pattern given).tokens.length) {rest : List Token}
    (stops : Stops 4 rest) :
    Reads (comparison (Grammar.term depth)) (Term.like span operand pattern given).tokens rest
      (Recovered (.like span operand pattern given)) := by
  have shorter : ∀ part ∈ [operand, pattern], part.tokens.length < (Term.like span operand pattern given).tokens.length :=
    fun part member => part_tokens rfl member
  have follows := stops_predicate given (by decide : (Token.keyword .like).strength < 5) pattern.tokens rest
  have read := ready operand (shorter operand (.head _)) formed.2.1 (scalar_part scalar (.head _)) 5 _ (by decide)
    formed.1 follows
  have readPattern := ready pattern (shorter pattern (.tail _ (.head _))) formed.2.2.2
    (scalar_part scalar (.tail _ (.head _))) 5 rest (by decide) formed.2.2.1 (stops_mono stops (by decide))
  rw [tokens, List.append_assoc]
  refine reads_mono (reads_compared read (reads_like_tail given readPattern)) ?_
  rintro _ ⟨place, inside, _, recovered, ⟨other, rfl, patternRecovered⟩, rfl⟩
  exact congrArg₂ (Term.like ⟨0, 0⟩ · · given) recovered patternRecovered

end

-- The induction is over the number of tokens: a term in parentheses takes two more than the term, and the depth
-- up to which terms nest is no less than the number of tokens.
theorem scalar_ready (original : Term) (formed : original.WellFormed) (scalar : original.isScalar = true) (depth : Nat)
    (enough : original.tokens.length ≤ depth) : Ready depth original := by
  generalize bound : original.tokens.length = size at enough
  induction size using Nat.strongRecOn generalizing original depth with
  | ind size ih =>
    have ready : ReadyBelow depth original.tokens.length := fun part shorter partFormed partScalar =>
      ih part.tokens.length (by omega) part partFormed partScalar depth rfl (by omega)
    -- A part in parentheses, arguments or branches is read one level of nesting deeper.
    have below : NestedBelow depth original.tokens.length := by
      intro part shorter partFormed partScalar whole
      obtain ⟨less, rfl⟩ : ∃ less, depth = less + 1 := ⟨depth - 1, by omega⟩
      exact ready_nested (ih part.tokens.length (by omega) part partFormed partScalar less rfl (by omega)) whole
    have plain := ((is_scalar_iff original).1 scalar).1
    have tightest := @ready_of_tightest depth original formed scalar
    cases original with
    | ident span name =>
      refine tightest fun rest stops => reads_mono (reads_name name stops) ?_
      rintro _ ⟨place, rfl⟩
      rfl
    | qualified | param =>
      exact tightest fun rest _ => reads_labelled (reads_first (reads_shape rfl fun _ => rfl))
    | wildcard span table =>
      cases table <;>
        exact tightest fun rest _ => reads_labelled (reads_first (reads_shape rfl fun _ => rfl))
    | literal span value =>
      cases value <;>
        exact tightest fun rest _ => reads_labelled (reads_first (reads_shape rfl fun _ => rfl))
    | call span head args => exact tightest fun rest stops => reads_call_term formed scalar below stops
    | windowed span head args partitionBy orderBy =>
      exact tightest fun rest _ => reads_windowed_term formed scalar below rest
    | cases span operand branches otherwise =>
      exact tightest fun rest _ => reads_cases_term formed scalar below rest
    | paren span inner =>
      have nested := below inner (part_tokens rfl (.head _)) formed.2 (scalar_part scalar (.head _)) formed.1
      exact tightest fun rest _ => reads_paren_term nested rest
    | binary span op left right =>
      refine tightest fun rest stops => ?_
      by_cases comparison : op.isComparison = true
      · have four : (Term.binary span op left right).level = 4 := of_decide_eq_true (comparison_level op ▸ comparison)
        rw [four] at stops ⊢
        exact reads_comparison comparison formed scalar ready stops
      · exact reads_joined (Bool.eq_false_iff.2 comparison) formed scalar ready stops
    | unary span op operand =>
      exact tightest fun rest stops => reads_unary formed scalar ready stops
    | isNull span operand given => exact tightest fun rest _ => reads_is_null formed scalar ready rest
    | inList span operand items given =>
      exact tightest fun rest _ => reads_in_list formed scalar below ready rest
    | like span operand pattern given => exact tightest fun rest stops => reads_like formed scalar ready stops
    | aliased | ordered =>
      intro level rest positive none
      exact absurd (Nat.le_trans positive none) (Nat.not_succ_le_zero 0)
    | lambda | «exists» | pipe | named => cases plain

theorem reads_script {depth : Nat} {original : Term} (nested : Nested depth original) (formed : original.WellFormed)
    (scalar : original.isScalar = true) :
    Reads (script (Grammar.term depth)) original.tokens [] fun found =>
      ∃ term, found = ⟨.query ⟨term, []⟩, []⟩ ∧ Recovered original term := by
  obtain ⟨first, others, tokens, opens, -⟩ := tokens_head original formed scalar
  have unbound : Refuses (binding (Grammar.term depth)) (original.tokens ++ []) := by
    refine refuses_bind (refuses_token ?_) _
    rw [tokens]
    rintro ⟨⟩
    exact absurd opens (by decide)
  have nothing : ∀ token : Token, ([] : List Token).head? ≠ some token := nofun
  have single : Reads (statement (Grammar.term depth)) original.tokens [] fun found =>
      ∃ term, found = .query ⟨term, []⟩ ∧ Recovered original term := by
    have alone := reads_pipe_one nested (fun token head => absurd head (nothing token)) (nothing _)
    refine reads_second unbound (reads_map alone ?_)
    rintro _ ⟨inside, rfl, recovered⟩
    exact ⟨inside, rfl, recovered⟩
  have refuses := refuses_term (fun token head => absurd head (nothing token)) depth
  have noOther : Refuses (statement (Grammar.term depth)) [] :=
    refuses_or_else (refuses_bind (refuses_token (nothing _)) _) (refuses_bind (refuses_bind refuses _) _)
  rw [← List.append_nil original.tokens]
  refine reads_bind single ?_
  rintro _ ⟨term, rfl, recovered⟩
  refine reads_bind (reads_no_more noOther) ?_
  rintro _ rfl
  exact reads_map reads_at_end fun _ _ => ⟨term, rfl, recovered⟩

end Grammar

theorem Script.parse_tokens {original : Term} (formed : original.WellFormed) (scalar : original.isScalar = true)
    (whole : 1 ≤ original.level) {lexemes : List Lexeme} (same : lexemes.map Lexeme.token = original.tokens) (width : Nat) :
    ∃ found, Script.parse lexemes width = .ok ⟨.query ⟨found, []⟩, []⟩ ∧ original.Recovered found := by
  have count : original.tokens.length = lexemes.length := by rw [← same, List.length_map]
  have ready := Grammar.scalar_ready original formed scalar lexemes.length (Nat.le_of_eq count)
  have reads := Grammar.reads_script (Grammar.ready_nested ready whole) formed scalar
  obtain ⟨_, behind, result, -, found, rfl, recovered⟩ := reads ⟨0, 0, lexemes⟩ (by simpa [Cursor.tokens] using same)
  refine ⟨found, ?_, recovered⟩
  obtain ⟨first, others, tokens, -⟩ := Term.tokens_head original formed scalar
  have filled : lexemes.isEmpty = false := by
    cases lexemes with
    | nil => rw [tokens] at same; cases same
    | cons => rfl
  unfold Script.parse
  simp only [filled, Bool.false_eq_true, if_false, result]

end PipeSql
