import PipeSql.Proofs.Dialect.Clean

set_option autoImplicit false

namespace PipeSql

open Text

namespace Text

-- No literal is open where the quotes come in pairs.
def isOutside (before : List Char) : Bool :=
  before.count '\'' % 2 == 0

-- A name that begins earlier goes on here.
def isInsideName (before : List Char) : Bool :=
  (before.reverse.takeWhile isNamePart).any isNameStart

-- The name that begins here, if an opening parenthesis is right behind it and no dot in front.
def called? (before after : List Char) : Option (List Char) :=
  if after.head?.any isNameStart && !isInsideName before && before.getLast? != some '.' &&
      (after.dropWhile isNamePart).head? == some '(' then
    some (after.takeWhile isNamePart)
  else none

end Text

namespace Dialect

def isRenamed (function : List Char) : Bool :=
  all.any fun dialect => (dialect.rename? (asciiUpper (String.ofList function))).isSome

-- No bars and no call of a renamed function begin here, unless the name is behind a dot.
def isNeutralAt (before after : List Char) : Bool :=
  !isOutside before || !(after.take 2 == ['|', '|']) && !(called? before after).any isRenamed

def isNeutral (text : String) : Bool :=
  (List.range (text.toList.length + 1)).all fun place =>
    isNeutralAt (text.toList.take place) (text.toList.drop place)

example : isNeutral "price || 'eur'" = false := by decide
example : isNeutral "1 + length(name)" = false := by decide
example : isNeutral "t.length(a) + my_length(b) + 'it''s || length(c)'" = true := by decide +kernel

theorem neutral_at {text : String} (neutral : isNeutral text = true) {before after : List Char}
    (parts : text.toList = before ++ after) : isNeutralAt before after = true := by
  have present : before.length ∈ List.range (text.toList.length + 1) := by
    rw [List.mem_range, parts, List.length_append]
    omega
  have place := List.all_eq_true.1 neutral before.length present
  rwa [parts, List.take_left, List.drop_left] at place

theorem mem_all (dialect : Dialect) : dialect ∈ all := by
  cases dialect <;> decide

end Dialect

namespace Piece

theorem literal_end_closes (rest : List Char) :
    (literalEnd rest).2 = [] ∨ ∃ body, (literalEnd rest).1 = body ++ ['\''] ∧ body.count '\'' % 2 = 0 := by
  induction rest using literalEnd.induct with
  | case1 => exact .inl rfl
  | case2 rest ih =>
    rw [literalEnd]
    rcases ih with ended | ⟨body, closed, even⟩
    · exact .inl ended
    · refine .inr ⟨'\'' :: '\'' :: body, by simp [closed], ?_⟩
      simp only [List.count_cons_self]
      omega
  | case3 rest alone => exact .inr ⟨[], by simp [literalEnd], rfl⟩
  | case4 c rest alone different ih =>
    rw [literalEnd, if_neg different]
    · rcases ih with ended | ⟨body, closed, even⟩
      · exact .inl ended
      · refine .inr ⟨c :: body, by simp [closed], ?_⟩
        rw [List.count_cons_of_ne (by simpa using different)]
        exact even
    · exact alone

end Piece

namespace Spelling

theorem renamed_word (spelling : Spelling) {qualified : Bool} {word : List Char} {rest : List Piece} {name : String}
    (renamed : spelling.renamed? qualified word rest = some name) :
    qualified = false ∧ spelling.rename (asciiUpper (String.ofList word)) = some name := by
  unfold renamed? at renamed
  split at renamed
  · cases renamed
  · rename_i unqualified
    split at renamed
    · exact ⟨by simpa using unqualified, renamed⟩
    · cases renamed

end Spelling

namespace Dialect

theorem neutral_bars {before rest : List Char} (outside : isOutside before = true) :
    isNeutralAt before ('|' :: '|' :: rest) = false := by
  simp [isNeutralAt, outside]

theorem neutral_call {before after word : List Char} (outside : isOutside before = true)
    (neutral : isNeutralAt before after = true) (called : called? before after = some word) (dialect : Dialect) :
    dialect.rename? (asciiUpper (String.ofList word)) = none := by
  simp only [isNeutralAt, outside, Bool.not_true, Bool.false_or, called, Option.any_some, Bool.and_eq_true,
    Bool.not_eq_true', isRenamed, List.any_eq_false, Option.not_isSome_iff_eq_none] at neutral
  exact neutral.2 dialect dialect.mem_all

-- At the beginning of a piece no literal is open and no name goes on, and every place from here is neutral.
structure Passed (before chars : List Char) : Prop where
  outside : isOutside before = true
  begins : ∀ c, chars.head? = some c → isNamePart c = true → isInsideName before = false
  neutral : ∀ front back, chars = front ++ back → isNeutralAt (before ++ front) back = true

section

variable {before rest : List Char}

theorem Passed.here (passed : Passed before rest) : isNeutralAt before rest = true := by
  have placed := passed.neutral [] rest rfl
  rwa [List.append_nil] at placed

theorem passed_piece {piece : List Char} (passed : Passed before (piece ++ rest)) (even : piece.count '\'' % 2 = 0)
    (begins : ∀ c, rest.head? = some c → isNamePart c = true → isInsideName (before ++ piece) = false) :
    Passed (before ++ piece) rest where
  outside := by
    have evenBefore := passed.outside
    simp only [isOutside, List.count_append, beq_iff_eq] at evenBefore ⊢
    omega
  begins := begins
  neutral front back same := by
    have placed := passed.neutral (piece ++ front) back (by rw [same, List.append_assoc])
    rwa [← List.append_assoc] at placed

theorem passed_literal {body : List Char} (passed : Passed before ('\'' :: (body ++ ['\'']) ++ rest))
    (even : body.count '\'' % 2 = 0) : Passed (before ++ '\'' :: (body ++ ['\''])) rest := by
  apply passed_piece passed
  · simp only [List.count_cons_self, List.count_append, List.count_nil]
    omega
  · intro c _ _
    simp [isInsideName, Piece.name_part_quote]

theorem passed_word {c : Char} (passed : Passed before (c :: rest)) (noQuote : c ≠ '\'') :
    Passed (before ++ c :: rest.takeWhile isNamePart) (rest.dropWhile isNamePart) := by
  apply passed_piece
  · rwa [List.cons_append, List.takeWhile_append_dropWhile]
  · have none : '\'' ∉ c :: rest.takeWhile isNamePart := by
      simp [noQuote.symm, Piece.not_mem_take_while_name]
    rw [List.count_eq_zero_of_not_mem none]
  · intro d first part
    have stops := List.head?_dropWhile_not isNamePart rest
    rw [first] at stops
    simp [part] at stops

theorem passed_other {c : Char} (passed : Passed before (c :: rest)) (noQuote : c ≠ '\'')
    (noStart : ¬isNameStart c = true) : Passed (before ++ [c]) rest := by
  apply passed_piece passed
  · rw [List.count_eq_zero_of_not_mem (by simpa using noQuote.symm)]
  · intro d _ _
    by_cases part : isNamePart c = true
    · have outsideName := passed.begins c rfl part
      simp only [isInsideName, List.reverse_append, List.reverse_singleton, List.singleton_append,
        List.takeWhile_cons, part, ite_true, List.any_cons] at outsideName ⊢
      simp [outsideName, noStart]
    · simp [isInsideName, part]

theorem passed_kept (dialect : Dialect) {c : Char} (passed : Passed before (c :: rest)) (start : isNameStart c = true) :
    dialect.spelling.renamed? (before.getLast? == some '.') (c :: rest.takeWhile isNamePart)
      (Piece.split (rest.dropWhile isNamePart)) = none := by
  cases renamed : dialect.spelling.renamed? (before.getLast? == some '.') (c :: rest.takeWhile isNamePart)
      (Piece.split (rest.dropWhile isNamePart)) with
  | none => rfl
  | some name =>
    obtain ⟨unqualified, found⟩ := Spelling.renamed_word _ renamed
    obtain ⟨⟨others, opening⟩, -⟩ := Spelling.renamed_call _ renamed
    obtain ⟨args, behind, -⟩ := Piece.split_other opening
    have part := Text.name_start_part start
    have called : called? before (c :: rest) = some (c :: rest.takeWhile isNamePart) := by
      unfold called?
      rw [List.takeWhile_cons_of_pos part, List.dropWhile_cons_of_pos part, behind, passed.begins c rfl part, bne,
        unqualified]
      simp [start]
    have kept := neutral_call passed.outside passed.here called dialect
    exact absurd (kept.symm.trans found) (Option.some_ne_none name).symm

end

theorem write_neutral (dialect : Dialect) (before chars : List Char) (passed : Passed before chars) :
    dialect.spelling.write (before.getLast? == some '.') (Piece.split chars) = chars := by
  induction chars using Piece.split.induct generalizing before with
  | case1 => rw [Piece.split, Spelling.write]
  | case2 rest ih =>
    have whole := Piece.literal_end_append rest
    rw [Piece.split_literal, Spelling.write]
    rcases Piece.literal_end_closes rest with ended | ⟨body, closed, even⟩
    · rw [ended, List.append_nil] at whole
      rw [ended, Piece.split, Spelling.write, List.append_nil, whole]
    · rw [closed] at whole
      rw [← whole, ← List.cons_append] at passed
      have read := ih _ (passed_literal passed even)
      have flag : ((before ++ '\'' :: (body ++ ['\''])).getLast? == some '.') = false := by
        rw [← List.cons_append, ← List.append_assoc, List.getLast?_concat]
        rfl
      rw [flag] at read
      rw [read, closed, List.cons_append, whole]
  | case3 c rest noQuote bars ih =>
    obtain ⟨rfl, head⟩ := bars
    obtain ⟨others, rfl⟩ := List.head?_eq_some_iff.1 head
    have here := passed.here
    rw [neutral_bars passed.outside] at here
    cases here
  | case4 c rest noQuote noBars start ih =>
    rw [Piece.split, if_neg noQuote, if_neg noBars, if_pos start, Spelling.write_kept _ _ (passed_kept dialect passed start)]
    have read := ih _ (passed_word passed noQuote)
    have flag : ((before ++ c :: rest.takeWhile isNamePart).getLast? == some '.') = false := by
      rw [beq_eq_false_iff_ne, List.getLast?_append_cons]
      intro dotted
      rcases List.mem_cons.1 (List.mem_of_getLast? dotted) with rfl | member
      · cases start
      · cases List.mem_takeWhile_imp member
    rw [flag] at read
    rw [read, List.cons_append, List.takeWhile_append_dropWhile]
  | case5 c rest noQuote noBars noStart ih =>
    rw [Piece.split, if_neg noQuote, if_neg noBars, if_neg noStart, Spelling.write]
    have read := ih _ (passed_other passed noQuote noStart)
    have flag : ((before ++ [c]).getLast? == some '.') = (c == '.') := by simp
    rw [flag] at read
    rw [read]

theorem respell_neutral (dialect : Dialect) {text : String} (neutral : isNeutral text = true) :
    dialect.respell text = text := by
  have passed : Passed [] text.toList := ⟨rfl, fun _ _ _ => rfl, fun _ _ parts => neutral_at neutral parts⟩
  have kept := write_neutral dialect [] text.toList passed
  rw [respell, Spelling.respell]
  exact (congrArg String.ofList kept).trans String.ofList_toList

end Dialect

end PipeSql
