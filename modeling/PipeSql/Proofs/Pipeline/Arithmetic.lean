import PipeSql.Proofs.Pipeline.RoundTrip

set_option autoImplicit false

namespace PipeSql

namespace Arithmetic

def operators : List Operator :=
  [.add, .sub, .mul, .div, .mod]

-- The terms of integers and names with arithmetic operators between them.
inductive IsArithmetic : Term → Prop where
  | name (span : Span) (name : String) (sound : (Token.ident name).Sound) : IsArithmetic (.ident span name)
  | number (span : Span) (digits : String) (sound : (Token.int digits).Sound) :
      IsArithmetic (.literal span (.int digits))
  | binary (span : Span) (op : Operator) (left right : Term) (known : op ∈ operators) (first : IsArithmetic left)
      (second : IsArithmetic right) : IsArithmetic (.binary span op left right)

def number (digits : String) : Int :=
  digits.toList.foldl (fun value digit => value * 10 + (digit.toNat - '0'.toNat : Nat)) 0

-- Nothing is divided by zero.
def apply : Operator → Int → Int → Option Int
  | .add, left, right => some (left + right)
  | .sub, left, right => some (left - right)
  | .mul, left, right => some (left * right)
  | .div, left, right => if right = 0 then none else some (left.tdiv right)
  | .mod, left, right => if right = 0 then none else some (left.tmod right)
  | _, _, _ => none

section

variable (assignment : String → Int)

def value? : Term → Option Int
  | .ident _ name => some (assignment name)
  | .literal _ (.int digits) => some (number digits)
  | .binary _ op left right => (value? left).bind fun first => (value? right).bind (apply op first)
  | _ => none

-- What becomes of the product that is being read, and of its next factor.
structure Frame where
  sum : Int → Int
  product : Int → Option Int

def Frame.start : Frame :=
  ⟨id, some⟩

mutual

-- Reads on where an operand must follow.
def operand (stack : List Frame) (frame : Frame) : List Token → Option Int
  | .int digits :: rest => (frame.product (number digits)).bind fun product => behind stack frame.sum product rest
  | .ident name :: rest => (frame.product (assignment name)).bind fun product => behind stack frame.sum product rest
  | .symbol .leftParen :: rest => operand (frame :: stack) .start rest
  | _ => none

-- Reads on behind a product so far.
def behind (stack : List Frame) (sum : Int → Int) (product : Int) : List Token → Option Int
  | [] => if stack.isEmpty then some (sum product) else none
  | .symbol .plus :: rest => operand stack ⟨(sum product + ·), some⟩ rest
  | .symbol .minus :: rest => operand stack ⟨(sum product - ·), some⟩ rest
  | .symbol .star :: rest => operand stack ⟨sum, apply .mul product⟩ rest
  | .symbol .slash :: rest => operand stack ⟨sum, apply .div product⟩ rest
  | .symbol .percent :: rest => operand stack ⟨sum, apply .mod product⟩ rest
  | .symbol .rightParen :: rest =>
    match stack with
    | [] => none
    | outer :: stack => (outer.product (sum product)).bind fun product => behind stack outer.sum product rest
  | _ => none

end

-- The value of a text, if it can be read.
def evaluate? (text : String) : Option Int :=
  match tokenize text with
  | .ok lexemes => operand assignment [] .start (lexemes.map Lexeme.token)
  | .error _ => none

end

example : evaluate? (fun _ => 7) "2 + 3 * (x - 1) / 4 % 3 - 1" = some 2 := by decide +kernel

-- The tokens of the text of a term.
def written : Term → List Token
  | .ident _ name => [.ident name]
  | .literal _ (.int digits) => [.int digits]
  | .binary _ op left right =>
    (if Term.needsParens op left false then Token.enclosed (written left) else written left) ++
      op.token :: (if Term.needsParens op right true then Token.enclosed (written right) else written right)
  | _ => []

open Lowering Token

theorem arithmetic_part {term part : Term} (arithmetic : IsArithmetic term) (member : part ∈ term.parts) :
    IsArithmetic part := by
  cases arithmetic with
  | name | number => cases member
  | binary span op left right known first second =>
    simp only [Term.parts, List.mem_cons, List.not_mem_nil, or_false] at member
    rcases member with rfl | rfl
    · exact first
    · exact second

theorem operator_plain {op : Operator} (known : op ∈ operators) : op.isComparison = false := by
  revert op
  decide

theorem chunks_written {term : Term} (arithmetic : IsArithmetic term) :
    term.chunks.flatMap Chunk.tokens = written term := by
  induction arithmetic with
  | name | number => rfl
  | binary span op left right known _ _ first second =>
    simp [Term.chunks, written, operator_plain known, Chunk.parenthesized_tokens, first, second, Chunk.tokens]

theorem chunks_readable {scope : Scope} {term : Term} (arithmetic : IsArithmetic term) :
    ∀ chunk ∈ term.chunks, chunk.Readable scope := by
  have parenthesized : ∀ (needed : Bool) {inner : List Chunk}, (∀ chunk ∈ inner, chunk.Readable scope) →
      ∀ chunk ∈ Chunk.parenthesized needed inner, chunk.Readable scope := by
    intro needed inner each
    cases needed with
    | true => exact List.forall_mem_cons.2 ⟨trivial, List.forall_mem_append.2 ⟨each, List.forall_mem_singleton.2 trivial⟩⟩
    | false => exact each
  induction arithmetic with
  | name span name sound => exact List.forall_mem_singleton.2 sound
  | number span digits sound => exact List.forall_mem_singleton.2 sound
  | binary span op left right known _ _ first second =>
    have operator : (Chunk.token op.token).Readable scope := by cases op <;> trivial
    rw [Term.chunks, operator_plain known, List.append_assoc, List.append_assoc]
    refine List.forall_mem_append.2 ⟨List.forall_mem_nil _, List.forall_mem_append.2 ⟨parenthesized _ first, ?_⟩⟩
    refine List.forall_mem_append.2 ⟨?_, parenthesized _ second⟩
    exact List.forall_mem_cons.2 ⟨trivial, List.forall_mem_cons.2 ⟨operator, List.forall_mem_singleton.2 trivial⟩⟩

theorem text_written {queryText : QueryText} {scope : Scope} {term : Term} (arithmetic : IsArithmetic term) :
    Succeeds scope (term.text queryText) fun text => Prints text (written term) := by
  have laid : Chunk.Laid term False term.chunks := Term.chunks_laid term fun within => by
    cases Term.within_inherits arithmetic_part within arithmetic
  rw [Term.text_chunks, ← chunks_written arithmetic]
  exact succeeds_mono (Chunk.print_prints laid.chain (chunks_readable arithmetic)) fun _ printed => printed.prints

-- The strength of the operator at the top of a term.
def precedence? : Term → Option Nat
  | .binary _ op _ _ => some op.precedence
  | _ => none

theorem needs_parens_eq (op : Operator) (term : Term) (onRight : Bool) :
    Term.needsParens op term onRight = (precedence? term).any fun inner =>
      decide (inner < op.precedence) || (onRight && inner == op.precedence && [.sub, .div, .mod].contains op) := by
  cases term <;> rfl

theorem parens_on_right {op : Operator} {term : Term} (needed : Term.needsParens op term false = true) :
    Term.needsParens op term true = true := by
  cases term with
  | binary span inner left right =>
    simp only [Term.needsParens, Bool.false_and, Bool.or_false] at needed ⊢
    rw [needed, Bool.true_or]
  | _ => cases needed

theorem precedence_cases {op : Operator} (known : op ∈ operators) : op.precedence = 4 ∨ op.precedence = 5 := by
  simp only [operators, List.mem_cons, List.not_mem_nil, or_false] at known
  rcases known with rfl | rfl | rfl | rfl | rfl <;> decide

theorem term_strength {term : Term} (arithmetic : IsArithmetic term) :
    precedence? term = none ∨ precedence? term = some 4 ∨ precedence? term = some 5 := by
  cases arithmetic with
  | name | number => exact .inl rfl
  | binary span op left right known =>
    rcases precedence_cases known with weak | strong
    · exact .inr (.inl (congrArg some weak))
    · exact .inr (.inr (congrArg some strong))

-- No right operand continues the group of its operator without parentheses.
def leansLeft : Term → Bool
  | .binary _ op left right =>
    leansLeft left && leansLeft right &&
      (Term.needsParens op right true || precedence? right != some op.precedence)
  | _ => true

section

variable (assignment : String → Int)

theorem behind_weak {op : Operator} (known : op ∈ operators) (weak : op.precedence = 4) :
    ∃ combine : Int → Int → Int, (∀ first second, apply op first second = some (combine first second)) ∧
      ∀ stack sum product rest, behind assignment stack sum product (op.token :: rest) =
        operand assignment stack ⟨combine (sum product), some⟩ rest := by
  simp only [operators, List.mem_cons, List.not_mem_nil, or_false] at known
  rcases known with rfl | rfl | rfl | rfl | rfl
  · exact ⟨(· + ·), fun _ _ => rfl, fun _ _ _ _ => by rw [Operator.token, behind]⟩
  · exact ⟨(· - ·), fun _ _ => rfl, fun _ _ _ _ => by rw [Operator.token, behind]⟩
  all_goals cases weak

theorem behind_strong {op : Operator} (known : op ∈ operators) (strong : op.precedence = 5) (stack : List Frame)
    (sum : Int → Int) (product : Int) (rest : List Token) :
    behind assignment stack sum product (op.token :: rest) = operand assignment stack ⟨sum, apply op product⟩ rest := by
  simp only [operators, List.mem_cons, List.not_mem_nil, or_false] at known
  rcases known with rfl | rfl | rfl | rfl | rfl
  · cases strong
  · cases strong
  all_goals rw [Operator.token, behind]

-- From the start of a group, the tokens of the term leave a sum and a product that make its value.
def ReadsSum (term : Term) : Prop :=
  ∃ outcome : Option ((Int → Int) × Int),
    (∀ stack rest, operand assignment stack .start (written term ++ rest) =
      outcome.bind fun state => behind assignment stack state.1 state.2 rest) ∧
    outcome.map (fun state => state.1 state.2) = value? assignment term

-- From the start of a product, the tokens of the term leave its value as the product.
def ReadsProduct (term : Term) : Prop :=
  ∀ stack sum rest, operand assignment stack ⟨sum, some⟩ (written term ++ rest) =
    (value? assignment term).bind fun product => behind assignment stack sum product rest

variable {assignment} {term : Term}

theorem reads_sum (reads : ReadsProduct assignment term) : ReadsSum assignment term := by
  refine ⟨(value? assignment term).map fun product => (id, product), fun stack rest => ?_, ?_⟩
  · rw [Option.bind_map]
    exact reads stack id rest
  · rw [Option.map_map]
    exact Option.map_id'

-- Whatever the frame does with its next factor, it does to the value of a name, of a number or of a term in parentheses.
theorem reads_factor (arithmetic : IsArithmetic term) (reads : ReadsSum assignment term) {needed : Bool}
    (single : needed = false → precedence? term = none) (stack : List Frame) (frame : Frame) (rest : List Token) :
    operand assignment stack frame ((if needed then enclosed (written term) else written term) ++ rest) =
      ((value? assignment term).bind frame.product).bind fun product =>
        behind assignment stack frame.sum product rest := by
  cases needed with
  | true =>
    obtain ⟨outcome, read, valued⟩ := reads
    -- the closing parenthesis hands the sum over to the frame
    rw [if_pos rfl, enclosed, List.cons_append, List.append_assoc, operand, read, ← valued, Option.bind_map,
      Option.bind_assoc]
    rfl
  | false =>
    rw [if_neg Bool.false_ne_true]
    cases arithmetic with
    | name span name sound =>
      rw [written, List.singleton_append, operand]
      rfl
    | number span digits sound =>
      rw [written, List.singleton_append, operand]
      rfl
    | binary span op left right => cases single rfl

theorem reads_product (arithmetic : IsArithmetic term) (reads : ReadsSum assignment term)
    (bare : precedence? term ≠ some 4 → ReadsProduct assignment term) {needed : Bool}
    (strong : needed = false → precedence? term ≠ some 4) (stack : List Frame) (sum : Int → Int) (rest : List Token) :
    operand assignment stack ⟨sum, some⟩ ((if needed then enclosed (written term) else written term) ++ rest) =
      (value? assignment term).bind fun product => behind assignment stack sum product rest := by
  cases needed with
  | true =>
    rw [reads_factor arithmetic reads (fun impossible => by cases impossible), Option.bind_fun_some]
  | false => exact bare (strong rfl) stack sum rest

-- A sum stands in a product only in parentheses, so within a group sums are read before any product.
theorem left_leaning_reads (arithmetic : IsArithmetic term) (leans : leansLeft term = true) :
    ReadsSum assignment term ∧ (precedence? term ≠ some 4 → ReadsProduct assignment term) := by
  induction arithmetic with
  | name span name sound =>
    have reads : ReadsProduct assignment (.ident span name) := fun _ _ _ => by
      rw [written, List.singleton_append, operand]
      rfl
    exact ⟨reads_sum reads, fun _ => reads⟩
  | number span digits sound =>
    have reads : ReadsProduct assignment (.literal span (.int digits)) := fun _ _ _ => by
      rw [written, List.singleton_append, operand]
      rfl
    exact ⟨reads_sum reads, fun _ => reads⟩
  | binary span op left right known leftArithmetic rightArithmetic first second =>
    simp only [leansLeft, Bool.and_eq_true, Bool.or_eq_true, bne_iff_ne] at leans
    obtain ⟨⟨leftLeans, rightLeans⟩, apart⟩ := leans
    obtain ⟨leftSum, leftProduct⟩ := first leftLeans
    obtain ⟨rightSum, rightProduct⟩ := second rightLeans
    have tokens (rest : List Token) : written (.binary span op left right) ++ rest =
        (if Term.needsParens op left false then enclosed (written left) else written left) ++ (op.token ::
          ((if Term.needsParens op right true then enclosed (written right) else written right) ++ rest)) := by
      rw [written, List.append_assoc, List.cons_append]
    rcases precedence_cases known with weak | strong
    · obtain ⟨combine, applied, read⟩ := behind_weak assignment known weak
      obtain ⟨outcome, leftRead, leftValue⟩ := leftSum
      have leftBare : Term.needsParens op left false = false := by
        rw [needs_parens_eq, weak]
        rcases term_strength leftArithmetic with none | four | five
        · rw [none]
          rfl
        · rw [four]
          rfl
        · rw [five]
          rfl
      have rightStrong : Term.needsParens op right true = false → precedence? right ≠ some 4 := by
        intro bare same
        rw [bare, same, weak] at apart
        simp at apart
      refine ⟨⟨outcome.bind fun state => (value? assignment right).map fun product =>
        (combine (state.1 state.2), product), fun stack rest => ?_, ?_⟩, fun strong => absurd (congrArg some weak) strong⟩
      · rw [tokens, leftBare, if_neg Bool.false_ne_true, leftRead, Option.bind_assoc]
        congr 1
        funext state
        rw [read, reads_product rightArithmetic rightSum rightProduct rightStrong, Option.bind_map]
        rfl
      · rw [value?, ← leftValue, Option.map_bind, Option.bind_map]
        congr 1
        funext state
        rw [Function.comp_apply, Function.comp_apply, funext (applied (state.1 state.2)), Option.map_map,
          Option.map_eq_bind]
        rfl
    · have leftBare : Term.needsParens op left false = false → precedence? left ≠ some 4 := by
        intro bare same
        rw [needs_parens_eq, same, strong] at bare
        cases bare
      have rightSingle : Term.needsParens op right true = false → precedence? right = none := by
        intro bare
        rcases term_strength rightArithmetic with none | four | five
        · exact none
        · rw [needs_parens_eq, four, strong] at bare
          cases bare
        · rw [bare, five, strong] at apart
          simp at apart
      have reads : ReadsProduct assignment (.binary span op left right) := by
        intro stack sum rest
        rw [tokens, reads_product leftArithmetic leftSum leftProduct leftBare, value?, Option.bind_assoc]
        congr 1
        funext product
        rw [behind_strong assignment known strong, reads_factor rightArithmetic rightSum rightSingle]
      exact ⟨reads_sum reads, fun _ => reads⟩

end

-- Puts a left operand in front of a group, at the operand that the group begins with.
def graft (span : Span) (op : Operator) (left : Term) : Term → Term
  | .binary place inner first second =>
    if inner.precedence = op.precedence then .binary place inner (graft span op left first) second
    else .binary span op left (.binary place inner first second)
  | right => .binary span op left right

-- The term that the text of a term says: right operands without parentheses are grouped to the left.
def regrouped : Term → Term
  | .binary span op left right =>
    if Term.needsParens op right true then .binary span op (regrouped left) (regrouped right)
    else graft span op (regrouped left) (regrouped right)
  | term => term

section

variable {span : Span} {op : Operator} {left right term : Term}

theorem graft_precedence : precedence? (graft span op left right) = some op.precedence := by
  cases right with
  | binary place inner first second =>
    rw [graft]
    split
    · rename_i same
      exact congrArg some same
    · rfl
  | _ => rfl

theorem regrouped_precedence : precedence? (regrouped term) = precedence? term := by
  cases term with
  | binary span op left right =>
    rw [regrouped]
    split
    · rfl
    · exact graft_precedence
  | _ => rfl

theorem regrouped_parens (op : Operator) (term : Term) (onRight : Bool) :
    Term.needsParens op (regrouped term) onRight = Term.needsParens op term onRight := by
  rw [needs_parens_eq, needs_parens_eq, regrouped_precedence]

theorem graft_arithmetic (known : op ∈ operators) (first : IsArithmetic left) (second : IsArithmetic right) :
    IsArithmetic (graft span op left right) := by
  induction second with
  | name place name sound => exact .binary span op left _ known first (.name place name sound)
  | number place digits sound => exact .binary span op left _ known first (.number place digits sound)
  | binary place inner front back member frontArithmetic backArithmetic ih _ =>
    rw [graft]
    split
    · exact .binary place inner _ back member ih backArithmetic
    · exact .binary span op left _ known first (.binary place inner front back member frontArithmetic backArithmetic)

theorem regrouped_arithmetic (arithmetic : IsArithmetic term) : IsArithmetic (regrouped term) := by
  induction arithmetic with
  | name span name sound => exact .name span name sound
  | number span digits sound => exact .number span digits sound
  | binary span op left right known _ _ first second =>
    rw [regrouped]
    split
    · exact .binary span op _ _ known first second
    · exact graft_arithmetic known first second

theorem graft_leans (leftLeans : leansLeft left = true) (arithmetic : IsArithmetic right)
    (rightLeans : leansLeft right = true) : leansLeft (graft span op left right) = true := by
  induction arithmetic with
  | name place name sound => simp [graft, leansLeft, leftLeans, precedence?]
  | number place digits sound => simp [graft, leansLeft, leftLeans, precedence?]
  | binary place inner front back member _ _ ih _ =>
    rw [graft]
    split
    · simp only [leansLeft, Bool.and_eq_true] at rightLeans ⊢
      exact ⟨⟨ih rightLeans.1.1, rightLeans.1.2⟩, rightLeans.2⟩
    · rename_i different
      simp [leansLeft.eq_1 _ op, leftLeans, rightLeans, precedence?, different]

theorem regrouped_leans (arithmetic : IsArithmetic term) : leansLeft (regrouped term) = true := by
  induction arithmetic with
  | name | number => rfl
  | binary span op left right known _ rightArithmetic first second =>
    rw [regrouped]
    split
    · rename_i needed
      rw [leansLeft, first, second, regrouped_parens, needed]
      rfl
    · exact graft_leans first (regrouped_arithmetic rightArithmetic) second

-- Behind the grafted operand the right one is written as on its own, where it does not bind less tightly.
theorem graft_written (arithmetic : IsArithmetic right) :
    written (graft span op left right) =
      (if Term.needsParens op left false then enclosed (written left) else written left) ++ op.token ::
        (if Term.needsParens op right false then enclosed (written right) else written right) := by
  induction arithmetic with
  | name | number => rfl
  | binary place inner front back member _ _ ih _ =>
    rw [graft]
    split
    · rename_i same
      have bare : Term.needsParens inner (graft span op left front) false = false := by
        rw [needs_parens_eq, graft_precedence]
        simp [same]
      have rightBare : Term.needsParens op (.binary place inner front back) false = false := by
        simp [Term.needsParens, same]
      have alike : Term.needsParens op front false = Term.needsParens inner front false := by
        simp only [needs_parens_eq, same, Bool.false_and, Bool.or_false]
      rw [written, bare, ih, rightBare, written, alike]
      simp
    · rename_i different
      have alike : Term.needsParens op (.binary place inner front back) true =
          Term.needsParens op (.binary place inner front back) false := by
        simp [Term.needsParens, different]
      rw [written.eq_3 span op, alike]

theorem regrouped_written (arithmetic : IsArithmetic term) : written (regrouped term) = written term := by
  induction arithmetic with
  | name | number => rfl
  | binary span op left right known _ rightArithmetic first second =>
    rw [regrouped]
    split
    · rw [written, regrouped_parens, regrouped_parens, first, second, written]
    · rename_i bare
      have looseBare : ¬Term.needsParens op right false = true := fun needed => bare (parens_on_right needed)
      rw [graft_written (regrouped_arithmetic rightArithmetic), regrouped_parens, regrouped_parens, first, second, written,
        if_neg looseBare, if_neg bare]

end

-- A product of nothing but factors: the sums among them stand in parentheses.
def onlyMultiplies : Term → Bool
  | .binary _ .mul left right => onlyMultiplies left && onlyMultiplies right
  | .binary _ op _ _ => op.precedence != 5
  | _ => true

-- No multiplication has a division or a remainder without parentheses on its right.
def keepsGroups : Term → Bool
  | .binary _ op left right => keepsGroups left && keepsGroups right && (op != .mul || onlyMultiplies right)
  | _ => true

-- The operator may come before those of the group.
def Precedes (op : Operator) : Term → Prop
  | .binary _ inner first _ => inner.precedence = op.precedence →
      (∀ x y z, (apply op x y).bind (apply inner · z) = (apply inner y z).bind (apply op x)) ∧ Precedes op first
  | _ => True

section

variable {assignment : String → Int} {span : Span} {op : Operator} {left right term : Term}

theorem graft_value (arithmetic : IsArithmetic right) (precedes : Precedes op right) :
    value? assignment (graft span op left right) = value? assignment (.binary span op left right) := by
  induction arithmetic with
  | name | number => rfl
  | binary place inner front back known _ _ ih _ =>
    rw [graft]
    split
    · rename_i same
      obtain ⟨moves, earlier⟩ := precedes same
      rw [value?, ih earlier, value?, value?, value?]
      cases value? assignment left with
      | none => rfl
      | some x =>
        cases value? assignment front with
        | none => rfl
        | some y =>
          cases value? assignment back with
          | none => simp
          | some z => exact moves x y z
    · rfl

theorem precedes_apart (different : precedence? term ≠ some op.precedence) : Precedes op term := by
  cases term with
  | binary span inner first second => exact fun same => absurd (congrArg some same) different
  | _ => trivial

-- Behind an operator that does not associate, every group of its strength is in parentheses.
theorem bare_precedes (alone : [.sub, .div, .mod].contains op = true) (bare : ¬Term.needsParens op right true = true) :
    Precedes op (regrouped right) := by
  apply precedes_apart
  rw [regrouped_precedence]
  intro same
  apply bare
  rw [needs_parens_eq, same, Option.any_some, alone, beq_self_eq_true, Bool.and_self, Bool.and_self, Bool.or_true]

theorem sum_precedes (arithmetic : IsArithmetic term) : Precedes .add term := by
  induction arithmetic with
  | name | number => trivial
  | binary span op left right known _ _ first _ =>
    intro weak
    refine ⟨fun x y z => ?_, first⟩
    simp only [operators, List.mem_cons, List.not_mem_nil, or_false] at known
    rcases known with rfl | rfl | rfl | rfl | rfl
    · exact congrArg some (Int.add_assoc x y z)
    · exact congrArg some (Int.add_sub_assoc x y z)
    all_goals cases weak

theorem product_assoc (x y z : Int) : (apply .mul x y).bind (apply .mul · z) = (apply .mul y z).bind (apply .mul x) :=
  congrArg some (Int.mul_assoc x y z)

theorem graft_precedes (first : Precedes .mul left) (arithmetic : IsArithmetic right) (second : Precedes .mul right) :
    Precedes .mul (graft span .mul left right) := by
  induction arithmetic with
  | name | number => exact fun _ => ⟨product_assoc, first⟩
  | binary place inner front back known _ _ ih _ =>
    rw [graft]
    split
    · rename_i same
      exact fun _ => ⟨(second same).1, ih (second same).2⟩
    · exact fun _ => ⟨product_assoc, first⟩

theorem product_precedes (arithmetic : IsArithmetic term) (multiplies : onlyMultiplies term = true) :
    Precedes .mul (regrouped term) := by
  induction arithmetic with
  | name | number => trivial
  | binary span op left right known _ rightArithmetic first second =>
    by_cases multiplication : op = .mul
    · subst multiplication
      rw [onlyMultiplies, Bool.and_eq_true] at multiplies
      rw [regrouped]
      split
      · exact fun _ => ⟨product_assoc, first multiplies.1⟩
      · exact graft_precedes (first multiplies.1) (regrouped_arithmetic rightArithmetic) (second multiplies.2)
    · rw [onlyMultiplies.eq_2 _ _ _ _ multiplication, bne_iff_ne] at multiplies
      apply precedes_apart
      rw [regrouped_precedence]
      exact fun same => multiplies (Option.some.inj same)

theorem regrouped_value (arithmetic : IsArithmetic term) (keeps : keepsGroups term = true) :
    value? assignment (regrouped term) = value? assignment term := by
  induction arithmetic with
  | name | number => rfl
  | binary span op left right known _ rightArithmetic first second =>
    simp only [keepsGroups, Bool.and_eq_true, Bool.or_eq_true, bne_iff_ne] at keeps
    obtain ⟨⟨leftKeeps, rightKeeps⟩, multiplies⟩ := keeps
    have valued : value? assignment (.binary span op (regrouped left) (regrouped right)) =
        value? assignment (.binary span op left right) := by
      rw [value?, value?, first leftKeeps, second rightKeeps]
    rw [regrouped]
    split
    · exact valued
    · rename_i bare
      rw [← valued]
      apply graft_value (regrouped_arithmetic rightArithmetic)
      simp only [operators, List.mem_cons, List.not_mem_nil, or_false] at known
      rcases known with rfl | rfl | rfl | rfl | rfl
      · exact sum_precedes (regrouped_arithmetic rightArithmetic)
      · exact bare_precedes rfl bare
      · exact product_precedes rightArithmetic (multiplies.resolve_left fun different => different rfl)
      · exact bare_precedes rfl bare
      · exact bare_precedes rfl bare

end

/-- The text groups to the left where it has no parentheses, which matters only for a division or a remainder
behind a multiplication. -/
theorem arithmetic_text_evaluates (queryText : QueryText) (scope : Scope) (parameters : List Parameter) (term : Term)
    (arithmetic : IsArithmetic term) (assignment : String → Int) :
    ∃ text met, term.text queryText scope parameters = .ok (text, met) ∧
      evaluate? assignment text = value? assignment (regrouped term) ∧
      (keepsGroups term = true → evaluate? assignment text = value? assignment term) := by
  obtain ⟨text, met, lowered, prints⟩ := text_written arithmetic parameters
  obtain ⟨lexemes, tokenized, same⟩ := prints_read prints
  obtain ⟨⟨outcome, read, valued⟩, -⟩ :=
    @left_leaning_reads assignment _ (regrouped_arithmetic arithmetic) (regrouped_leans arithmetic)
  have evaluated : evaluate? assignment text = value? assignment (regrouped term) := by
    have whole := read [] []
    rw [List.append_nil, regrouped_written arithmetic] at whole
    rw [evaluate?, tokenized]
    dsimp only
    rw [same, whole, ← valued, Option.map_eq_bind]
    rfl
  exact ⟨text, met, lowered, evaluated, fun keeps => evaluated.trans (regrouped_value arithmetic keeps)⟩

theorem sums_and_quotients_evaluate :
    let term := Term.joined .sub (.joined .mul (.ident ⟨0, 1⟩ "a") (.joined .add (.ident ⟨0, 1⟩ "b") (.ident ⟨0, 1⟩ "c")))
      (.joined .add (.joined .div (.ident ⟨0, 1⟩ "a") (.joined .mul (.ident ⟨0, 1⟩ "b") (.ident ⟨0, 1⟩ "c")))
        (.literal ⟨0, 1⟩ (.int "3")))
    ∃ text met, term.text (fun _ _ => pure "") ⟨.sqlite, [], []⟩ [] = .ok (text, met) ∧
      evaluate? (fun name => if name = "a" then 7 else 2) text = some 24 := by
  intro term
  have a : IsArithmetic (.ident ⟨0, 1⟩ "a") := .name _ _ ⟨by decide, by decide⟩
  have b : IsArithmetic (.ident ⟨0, 1⟩ "b") := .name _ _ ⟨by decide, by decide⟩
  have c : IsArithmetic (.ident ⟨0, 1⟩ "c") := .name _ _ ⟨by decide, by decide⟩
  have three : IsArithmetic (.literal ⟨0, 1⟩ (.int "3")) := .number _ _ (by decide : Text.isDigits "3".toList = true)
  have product := IsArithmetic.binary ⟨0, 1⟩ .mul _ _ (by decide) a (.binary ⟨0, 1⟩ .add _ _ (by decide) b c)
  have quotient := IsArithmetic.binary ⟨0, 1⟩ .div _ _ (by decide) a (.binary ⟨0, 1⟩ .mul _ _ (by decide) b c)
  have arithmetic : IsArithmetic term :=
    .binary _ .sub _ _ (by decide) product (.binary _ .add _ _ (by decide) quotient three)
  obtain ⟨text, met, lowered, -, kept⟩ := arithmetic_text_evaluates _ _ [] term arithmetic _
  exact ⟨text, met, lowered, (kept (by decide)).trans (by decide)⟩

-- Two times the half of one is nothing, but half of two times one is one.
theorem quotient_loses_its_group :
    let term := Term.joined .mul (.ident ⟨0, 1⟩ "a") (.joined .div (.ident ⟨4, 5⟩ "b") (.ident ⟨8, 9⟩ "c"))
    let assignment (name : String) : Int := if name = "b" then 1 else 2
    term.text (fun _ _ => pure "") ⟨.sqlite, [], []⟩ [] = .ok ("a * b / c", []) ∧
      evaluate? assignment "a * b / c" = some 1 ∧ value? assignment term = some 0 := by
  intro term assignment
  exact ⟨rfl, by decide +kernel, by decide⟩

end Arithmetic

end PipeSql
