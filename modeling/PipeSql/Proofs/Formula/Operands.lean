import PipeSql.Formula
import PipeSql.Proofs.Dialect.Spells
import PipeSql.Proofs.Statement.Precedence

set_option autoImplicit false

namespace PipeSql

open Text

namespace Text

-- Characters of names, of numbers and of times.
def isSolid (c : Char) : Bool :=
  isNamePart c || c == '.' || c == '-' || c == '+' || c == ':'

-- Nothing divides the text into words.
def isRun (chars : List Char) : Bool :=
  chars.all isSolid

@[simp] theorem run_append (left right : List Char) : isRun (left ++ right) = (isRun left && isRun right) :=
  List.all_append

theorem run_subset {part whole : List Char} (run : isRun whole = true) (subset : ∀ c ∈ part, c ∈ whole) :
    isRun part = true :=
  List.all_eq_true.2 fun c member => List.all_eq_true.1 run c (subset c member)

theorem run_absent {chars : List Char} (run : isRun chars = true) {c : Char} (other : isSolid c = false) : c ∉ chars := by
  intro member
  rw [List.all_eq_true.1 run c member] at other
  cases other

theorem run_other {chars : List Char} (run : isRun chars = true) {c : Char} (member : c ∈ chars) (d : Char)
    (other : isSolid d = false) : c ≠ d := by
  rintro rfl
  exact run_absent run other member

@[simp] theorem run_digits (number : Nat) : isRun (Nat.toDigits 10 number) = true := by
  rw [isRun, List.all_eq_true]
  intro c member
  have digit := Nat.isDigit_of_mem_toDigits (by decide) (by decide) member
  simp [isSolid, isNamePart, Char.isAlphanum, digit]

theorem run_zeros (count : Nat) : isRun (List.replicate count '0') = true := by
  rw [isRun, List.all_eq_true]
  intro c member
  rw [List.eq_of_mem_replicate member]
  decide

theorem run_word {word : List Char} (sound : isWord word = true) : isRun word = true := by
  rw [isRun, List.all_eq_true]
  intro c member
  simp [isSolid, Token.word_parts word sound c member]

theorem double_quotes_free {chars : List Char} (free : '\'' ∉ chars) : doubleQuotes chars = chars := by
  induction chars with
  | nil => rfl
  | cons c rest ih =>
    rw [List.mem_cons, not_or] at free
    rw [doubleQuotes, if_neg (Ne.symm free.1), ih free.2]

end Text

namespace WhereText

-- Characters of operators.
def isSign (c : Char) : Bool :=
  c == '=' || c == '<' || c == '>'

structure IsOperand (text : String) : Prop where
  word : IsWord text
  changes : constant? text = none
  whole : text.toList.head? = some '\'' ∨ ∀ c ∈ text.toList, isSign c = false
  spelled : ∀ dialect : Dialect, dialect.Spells text text

theorem operand_run {text : String} (filled : text ≠ "") (run : isRun text.toList = true) : IsOperand text where
  word := by
    apply bare_word filled
    rw [List.all_eq_true]
    intro c member
    have other := run_other run member
    simp [isBare, other '\'' (by decide), other ' ' (by decide), other '(' (by decide), other ')' (by decide)]
  changes := by
    have other : ∀ word : String, '=' ∈ word.toList → text ≠ word := by
      rintro word present rfl
      exact run_absent run (by decide) present
    rw [constant?, if_neg (other "1=1" (by decide)), if_neg (other "1=0" (by decide))]
  whole := by
    refine .inr fun c member => ?_
    have other := run_other run member
    simp [isSign, other '=' (by decide), other '<' (by decide), other '>' (by decide)]
  spelled dialect :=
    Dialect.spells_plain dialect ⟨run_absent run (by decide), run_absent run (by decide), run_absent run (by decide)⟩

theorem operand_minus {text : String} (filled : text ≠ "") (run : isRun text.toList = true) : IsOperand ("-" ++ text) := by
  apply operand_run
  · simp [filled]
  · rw [String.toList_append, run_append, run]
    rfl

theorem operand_literal (value : String) : IsOperand (sqlLiteral value) where
  word := literal_word value
  changes := by
    have other : ∀ word : String, word.toList.head? ≠ some '\'' → sqlLiteral value ≠ word := by
      rintro word different rfl
      simp [sqlLiteral] at different
    rw [constant?, if_neg (other "1=1" (by decide)), if_neg (other "1=0" (by decide))]
  whole := .inl (by simp [sqlLiteral])
  spelled dialect := Dialect.spells_literal dialect value

theorem operand_name {name : String} (sound : isWord name.toList = true) : IsOperand name := by
  refine operand_run ?_ (run_word sound)
  rintro rfl
  cases sound

end WhereText

namespace Moment

@[simp] theorem padded_run (width value : Nat) : isRun (padded width value).toList = true := by
  simp [padded, run_zeros]

theorem year_text_run (year : Int) : isRun (yearText year).toList = true := by
  unfold yearText
  dsimp only
  have minus : isRun "-".toList = true := by decide
  have plus : isRun "+".toList = true := by decide
  split
  · rw [String.toList_append, run_append, minus, padded_run, Bool.and_true]
  · split
    · rw [String.toList_append, run_append, plus, padded_run, Bool.and_true]
    · exact padded_run _ _

theorem sql_literal (moment : Moment) : moment.sql = sqlLiteral (moment.dayText ++ " " ++ moment.timeText) := by
  have dash : isRun "-".toList = true := by decide
  have colon : isRun ":".toList = true := by decide
  have day : isRun moment.dayText.toList = true := by
    simp only [dayText, String.toList_append, run_append, year_text_run, padded_run, dash, Bool.and_self]
  have time : isRun moment.timeText.toList = true := by
    simp only [timeText, String.toList_append, run_append, padded_run, colon, Bool.and_self]
  have free : '\'' ∉ (moment.dayText ++ " " ++ moment.timeText).toList := by
    have quote : isSolid '\'' = false := by decide
    simp [run_absent day quote, run_absent time quote]
  rw [sqlLiteral, escapeLiteral, double_quotes_free free, String.ofList_toList, sql]
  simp only [String.append_assoc]

end Moment

namespace Decimal

variable {decimal : Decimal}

theorem split_run (run : isRun decimal.digits = true) : isRun decimal.split.1 = true ∧ isRun decimal.split.2 = true := by
  unfold split
  by_cases small : decimal.point ≤ 0
  · rw [if_pos small]
    exact ⟨rfl, by simp [zeros, run_zeros, run]⟩
  · rw [if_neg small]
    refine ⟨?_, run_subset run fun c => List.mem_of_mem_drop⟩
    have taken : isRun (decimal.digits.take decimal.point.toNat) = true := run_subset run fun c => List.mem_of_mem_take
    simp [zeros, run_zeros, taken]

theorem split_filled (decimal : Decimal) : decimal.split.1 ≠ [] := by
  unfold split
  by_cases small : decimal.point ≤ 0
  · rw [if_pos small]
    exact List.cons_ne_nil _ _
  · rw [if_neg small]
    apply List.ne_nil_of_length_pos
    simp only [zeros, List.length_append, List.length_take, List.length_replicate]
    omega

theorem positional_run (run : isRun decimal.digits = true) : isRun (decimal.positional 0).toList = true := by
  obtain ⟨whole, fraction⟩ := split_run run
  have point : isRun ('.' :: decimal.split.2) = true := fraction
  by_cases none : decimal.split.2.isEmpty = true
  · simp [positional, zeros, none, whole]
  · simp [positional, zeros, none, whole, point]

theorem positional_filled (decimal : Decimal) : decimal.positional 0 ≠ "" := by
  have filled := split_filled decimal
  by_cases none : decimal.split.2.isEmpty = true
  · simp [positional, zeros, none, filled]
  · simp [positional, zeros, none]

end Decimal

namespace Binary64

theorem shortest_run (number : Binary64) : isRun number.shortest.digits = true := by
  unfold shortest
  by_cases zero : number.isZero = true
  · rw [if_pos zero]
    decide
  · rw [if_neg zero]
    apply run_subset (run_digits _)
    intro c member
    simp only [withoutTrailingZeros, List.mem_reverse] at member
    exact List.mem_reverse.1 ((List.dropWhile_sublist _).subset member)

theorem plain_operand (number : Binary64) : WhereText.IsOperand number.plain := by
  -- the magnitude is not empty, so the sign in front of it is part of the word
  have magnitude : ∀ text, text = (if number.isInfinite then "inf" else number.shortest.positional 0) →
      text ≠ "" ∧ isRun text.toList = true := by
    rintro text rfl
    by_cases infinite : number.isInfinite = true
    · rw [if_pos infinite]
      decide
    · rw [if_neg infinite]
      exact ⟨Decimal.positional_filled _, Decimal.positional_run number.shortest_run⟩
  obtain ⟨filled, run⟩ := magnitude _ rfl
  unfold plain signed
  by_cases nan : number.isNaN = true
  · rw [if_pos nan]
    exact WhereText.operand_run (by decide) (by decide)
  · rw [if_neg nan]
    by_cases negative : number.isNegative = true
    · rw [if_pos negative]
      exact WhereText.operand_minus filled run
    · rw [if_neg negative, String.empty_append]
      exact WhereText.operand_run filled run

end Binary64

namespace Value

theorem int_operand (value : Int) : WhereText.IsOperand (toString value) := by
  have digits : ∀ number : Nat, number.repr ≠ "" ∧ isRun number.repr.toList = true := by
    intro number
    rw [Nat.toList_repr, run_digits]
    simp [Nat.repr, Nat.toDigits_ne_nil]
  rw [Int.toString_eq_repr, Int.repr_eq_if]
  split
  · exact WhereText.operand_run (digits _).1 (digits _).2
  · exact WhereText.operand_minus (digits _).1 (digits _).2

theorem literal_operand (value : Value) : WhereText.IsOperand value.literal := by
  cases value with
  | text value => exact WhereText.operand_literal value
  | bool value => cases value <;> exact WhereText.operand_run (by decide) (by decide)
  | moment value =>
    rw [literal, Moment.sql_literal]
    exact WhereText.operand_literal _
  | int value => exact int_operand value
  | float value => exact value.plain_operand
  | null => exact WhereText.operand_run (by decide) (by decide)

end Value

theorem TextTest.pattern_operand (test : TextTest) (text : String) : WhereText.IsOperand (test.pattern text) := by
  cases test with
  | contains =>
    have literal : TextTest.contains.pattern text = sqlLiteral ("%" ++ text ++ "%") := by
      apply String.toList_inj.1
      simp [pattern, sqlLiteral, escapeLiteral, double_quotes_append, doubleQuotes]
    rw [literal]
    exact WhereText.operand_literal _
  | startsWith =>
    have literal : TextTest.startsWith.pattern text = sqlLiteral (text ++ "%") := by
      apply String.toList_inj.1
      simp [pattern, sqlLiteral, escapeLiteral, double_quotes_append, doubleQuotes]
    rw [literal]
    exact WhereText.operand_literal _

end PipeSql
