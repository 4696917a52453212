import PipeSql.Proofs.Dialect.Spelling

set_option autoImplicit false

namespace PipeSql

open Text

theorem take_while_separated {accepted : Char → Bool} {c : Char} (stops : accepted c = false) (a b : List Char) :
    (a ++ c :: b).takeWhile accepted = a.takeWhile accepted := by
  induction a with
  | nil => simp [stops]
  | cons d rest ih => simp only [List.cons_append, List.takeWhile_cons, ih]

theorem drop_while_separated {accepted : Char → Bool} {c : Char} (stops : accepted c = false) (a b : List Char) :
    (a ++ c :: b).dropWhile accepted = a.dropWhile accepted ++ c :: b := by
  induction a with
  | nil => simp [stops]
  | cons d rest ih =>
    rw [List.cons_append, List.dropWhile_cons, List.dropWhile_cons]
    split
    · exact ih
    · rfl

namespace Piece

theorem split_chars (chars : List Char) : (split chars).flatMap Piece.chars = chars := by
  induction chars using split.induct with
  | case1 => simp [split]
  | case2 rest ih =>
    rw [split_literal, List.flatMap_cons, ih]
    simp [Piece.chars, literal_end_append]
  | case3 c rest outside bars ih =>
    obtain ⟨rfl, head⟩ := bars
    obtain ⟨tail, rfl⟩ : ∃ tail, rest = '|' :: tail := by
      cases rest with
      | nil => cases head
      | cons d tail => exact ⟨tail, by rw [Option.some.inj head]⟩
    rw [split, if_neg outside, if_pos ⟨rfl, head⟩, List.flatMap_cons, ih]
    rfl
  | case4 c rest outside noBars start ih =>
    rw [split, if_neg outside, if_neg noBars, if_pos start, List.flatMap_cons, ih]
    simp [Piece.chars, List.takeWhile_append_dropWhile]
  | case5 c rest outside noBars noStart ih =>
    rw [split, if_neg outside, if_neg noBars, if_neg noStart, List.flatMap_cons, ih]
    rfl

-- A character that ends every piece before it, and is one of its own.
structure Separates (c : Char) : Prop where
  quote : c ≠ '\''
  bar : c ≠ '|'
  start : isNameStart c = false
  part : isNamePart c = false

theorem space_separates : Separates ' ' := ⟨by decide, by decide, by decide, by decide⟩

theorem closing_separates : Separates ')' := ⟨by decide, by decide, by decide, by decide⟩

theorem split_separator {c : Char} (separates : Separates c) (rest : List Char) :
    split (c :: rest) = .other c :: split rest := by
  rw [split, if_neg separates.quote, if_neg (fun both => separates.bar both.1), if_neg (by simp [separates.start])]

theorem split_separated {c : Char} (separates : Separates c) {a twin : List Char} (closed : Text.Alike a twin)
    (b : List Char) : split (a ++ c :: b) = split a ++ .other c :: split b := by
  generalize bound : a.length = size
  induction size using Nat.strongRecOn generalizing a twin with
  | ind size ih =>
    cases closed with
    | nil =>
      rw [List.nil_append, split_separator separates, split.eq_1]
      rfl
    | literal x y a twin rest =>
      simp only [List.length_cons, List.length_append] at bound
      obtain ⟨x', _, a', _, closed', shorter, ends, -⟩ := literal_end_alike rest x y
      have alone := ends [] (by simp)
      have followed := ends (c :: b) (by simpa using separates.quote)
      simp only [List.append_nil] at alone
      rw [List.cons_append, List.append_assoc, List.cons_append, split_literal, split_literal, alone, followed]
      rw [ih a'.length (by omega) closed' rfl]
      rfl
    | other d a twin outside rest =>
      simp only [List.length_cons] at bound
      have head : (a ++ c :: b).head? = some '|' ↔ a.head? = some '|' := by
        cases a with
        | nil => simpa using separates.bar
        | cons e others => rfl
      rw [List.cons_append, split, split.eq_2, if_neg outside, if_neg outside]
      by_cases bars : d = '|' ∧ a.head? = some '|'
      · rw [if_pos ⟨bars.1, head.2 bars.2⟩, if_pos bars]
        have tail : (a ++ c :: b).tail = a.tail ++ c :: b := by
          cases a with
          | nil => cases bars.2
          | cons e others => rfl
        rw [tail, ih a.tail.length (by rw [List.length_tail]; omega) (alike_tail rest (by decide) bars.2) rfl]
        rfl
      · rw [if_neg (fun both => bars ⟨both.1, head.1 both.2⟩), if_neg bars]
        by_cases start : isNameStart d = true
        · have shorter := (List.dropWhile_suffix isNamePart (l := a)).length_le
          rw [if_pos start, if_pos start, take_while_separated separates.part, drop_while_separated separates.part,
            ih _ (by omega) (alike_drop_while rest name_part_quote) rfl]
          rfl
        · rw [if_neg start, if_neg start, ih a.length (by omega) rest rfl]
          rfl

end Piece

namespace Spelling

theorem renamed_separated (spelling : Spelling) (qualified : Bool) (word : List Char) {c : Char} (other : c ≠ '(')
    (left right : List Piece) :
    spelling.renamed? qualified word (left ++ .other c :: right) = spelling.renamed? qualified word left := by
  cases left with
  | nil => simp [renamed?, other]
  | cons first rest => exact renamed_head spelling qualified word first _ _

theorem last_of_tail {first last : Piece} {rest : List Piece} (different : (first :: rest).getLast? ≠ some last) :
    rest.getLast? ≠ some last := by
  cases rest with
  | nil => simp
  | cons second rest => simpa using different

-- Behind an opening parenthesis a closing one could end an empty list of arguments.
theorem write_separated (spelling : Spelling) (qualified : Bool) {c : Char} (opening : c ≠ '(') (dot : c ≠ '.')
    (left right : List Piece) (filled : c = ')' → left.getLast? ≠ some (.other '(')) :
    spelling.write qualified (left ++ .other c :: right) =
      spelling.write qualified left ++ c :: spelling.write false right := by
  induction qualified, left using write.induct spelling with
  | case1 qualified =>
    change c :: spelling.write (c == '.') right = c :: spelling.write false right
    rw [beq_eq_false_iff_ne.2 dot]
  | case2 qualified chars rest ih =>
    rw [List.cons_append, write, write, ih (fun closing => last_of_tail (filled closing)), List.append_assoc]
  | case3 qualified rest ih =>
    rw [List.cons_append, write, write, ih (fun closing => last_of_tail (filled closing)), List.append_assoc]
  | case4 qualified d rest ih =>
    rw [List.cons_append, write, write, ih (fun closing => last_of_tail (filled closing))]
    rfl
  | case5 qualified chars rest kept ih =>
    have kept' := (renamed_separated spelling qualified chars opening rest right).trans kept
    rw [List.cons_append, write_kept spelling qualified kept, write_kept spelling qualified kept',
      ih (fun closing => last_of_tail (filled closing)), List.append_assoc]
  | case6 qualified chars name rest renamed ih =>
    have renamed' := (renamed_separated spelling qualified chars opening _ right).trans renamed
    have shorter := ih fun closing => last_of_tail (last_of_tail (last_of_tail (filled closing)))
    simp only [List.cons_append] at renamed' ⊢
    rw [write_emptied spelling qualified renamed, write_emptied spelling qualified renamed', shorter,
      ← List.append_assoc]
  | case7 qualified chars name rest notEmptied renamed ih =>
    have renamed' := (renamed_separated spelling qualified chars opening rest right).trans renamed
    have notEmptied' : ∀ others, rest ++ .other c :: right ≠ .other '(' :: .other ')' :: others := by
      intro others emptied
      cases rest with
      | nil =>
        have parenthesis := (List.cons.inj emptied).1
        exact opening (Piece.other.inj parenthesis)
      | cons first rest =>
        obtain ⟨rfl, tail⟩ := List.cons.inj emptied
        cases rest with
        | nil =>
          have closing := Piece.other.inj (List.cons.inj tail).1
          exact filled closing (by simp)
        | cons second rest =>
          obtain ⟨rfl, _⟩ := List.cons.inj tail
          exact notEmptied rest rfl
    rw [List.cons_append, write_renamed spelling qualified notEmptied renamed,
      write_renamed spelling qualified notEmptied' renamed', ih fun closing => last_of_tail (filled closing),
      List.append_assoc]

theorem write_called (spelling : Spelling) (qualified : Bool) {word : List Char} {rest : List Piece} {name : String}
    (renamed : spelling.renamed? qualified word rest = some name) :
    ∃ others, spelling.write qualified (.word word :: rest) = name.toList ++ others := by
  by_cases emptied : ∃ others, rest = .other '(' :: .other ')' :: others
  · obtain ⟨others, rfl⟩ := emptied
    exact ⟨_, (write_emptied spelling qualified renamed).trans (List.append_assoc _ _ _)⟩
  · exact ⟨_, write_renamed spelling qualified (fun others same => emptied ⟨others, same⟩) renamed⟩

theorem write_unchanged (spelling : Spelling) (qualified : Bool) (pieces : List Piece) (noBars : Piece.bars ∉ pieces)
    (noCalls : Piece.other '(' ∉ pieces) : spelling.write qualified pieces = pieces.flatMap Piece.chars := by
  induction pieces generalizing qualified with
  | nil => rfl
  | cons piece rest ih =>
    simp only [List.mem_cons, not_or] at noBars noCalls
    have shorter := fun qualified => ih qualified noBars.2 noCalls.2
    cases piece with
    | literal chars => rw [write, shorter, List.flatMap_cons, Piece.chars]
    | bars => exact absurd rfl noBars.1
    | other c =>
      rw [write, shorter, List.flatMap_cons]
      rfl
    | word chars =>
      have kept : spelling.renamed? qualified chars rest = none := by
        cases renamed : spelling.renamed? qualified chars rest with
        | none => rfl
        | some name =>
          obtain ⟨⟨others, rfl⟩, -⟩ := renamed_call spelling renamed
          exact absurd (.head _) noCalls.2
      rw [write_kept spelling qualified kept, shorter, List.flatMap_cons, Piece.chars]

end Spelling

-- The text ends outside of a string literal.
def Text.Closed (text : String) : Prop :=
  ∃ twin, Text.Alike text.toList twin

theorem Text.closed_append {left right : String} (leftClosed : Closed left) (rightClosed : Closed right) :
    Closed (left ++ right) := by
  obtain ⟨leftTwin, leftAlike⟩ := leftClosed
  obtain ⟨rightTwin, rightAlike⟩ := rightClosed
  refine ⟨leftTwin ++ rightTwin, ?_⟩
  rw [String.toList_append]
  exact alike_append leftAlike rightAlike

theorem Text.closed_plain {text : String} (free : '\'' ∉ text.toList) : Closed text :=
  ⟨text.toList, alike_of_no_quote free⟩

namespace Dialect

theorem respell_chars (dialect : Dialect) (text : String) :
    (dialect.respell text).toList = dialect.spelling.write false (Piece.split text.toList) :=
  String.toList_ofList

theorem respell_spaced (dialect : Dialect) {left : String} (closed : Text.Closed left) (right : String) :
    dialect.respell (left ++ " " ++ right) = dialect.respell left ++ " " ++ dialect.respell right := by
  obtain ⟨twin, alike⟩ := closed
  apply String.toList_inj.1
  have joined : (left ++ " " ++ right).toList = left.toList ++ ' ' :: right.toList := by simp
  rw [String.toList_append, String.toList_append, respell_chars, respell_chars, respell_chars, joined,
    Piece.split_separated Piece.space_separates alike,
    Spelling.write_separated _ _ (by decide) (by decide) _ _ (fun closing => absurd closing (by decide))]
  simp

-- A parenthesis that opens at the end could take the closing one for an empty list of arguments.
theorem respell_parenthesized (dialect : Dialect) {text : String} (closed : Text.Closed text)
    (filled : text.toList.getLast? ≠ some '(') :
    dialect.respell ("(" ++ text ++ ")") = "(" ++ dialect.respell text ++ ")" := by
  obtain ⟨twin, alike⟩ := closed
  apply String.toList_inj.1
  have enclosed : ("(" ++ text ++ ")").toList = '(' :: (text.toList ++ ')' :: []) := by simp
  have opened : Piece.split ('(' :: (text.toList ++ ')' :: [])) =
      .other '(' :: (Piece.split text.toList ++ .other ')' :: Piece.split []) := by
    rw [← Piece.split_separated Piece.closing_separates alike, Piece.split]
    rfl
  have last : (Piece.split text.toList).getLast? ≠ some (.other '(') := by
    intro ends
    obtain ⟨front, split⟩ := List.getLast?_eq_some_iff.1 ends
    apply filled
    rw [← Piece.split_chars text.toList, split]
    simp [Piece.chars]
  rw [String.toList_append, String.toList_append, respell_chars, respell_chars, enclosed, opened, Spelling.write.eq_4,
    Spelling.write_separated _ _ (by decide) (by decide) _ _ (fun _ => last)]
  simp [Piece.split, Spelling.write]

theorem respell_plain (dialect : Dialect) {text : String} (noBars : '|' ∉ text.toList) (noCalls : '(' ∉ text.toList) :
    dialect.respell text = text := by
  have outside : ∀ piece ∈ Piece.split text.toList, ∀ c ∈ piece.chars, c ∈ text.toList := by
    intro piece member c inside
    rw [← Piece.split_chars text.toList]
    exact List.mem_flatMap.2 ⟨piece, member, inside⟩
  apply String.toList_inj.1
  rw [respell_chars, Spelling.write_unchanged, Piece.split_chars]
  · exact fun member => noBars (outside _ member '|' (.head _))
  · exact fun member => noCalls (outside _ member '(' (.head _))

theorem renamed_start (dialect : Dialect) {function name : String} (renamed : dialect.rename? function = some name) :
    ∃ c rest, name.toList = c :: rest ∧ Text.isNameStart c = true := by
  unfold rename? at renamed
  split at renamed
  all_goals cases renamed
  all_goals exact ⟨_, _, rfl, by decide⟩

theorem concat_start (dialect : Dialect) :
    ∃ c rest, dialect.spelling.concat.toList = c :: rest ∧ (c = '|' ∨ c = '+') := by
  cases dialect <;> exact ⟨_, _, rfl, by decide⟩

-- A letter may take the place of a letter, and an operator that of bars.
theorem write_first (dialect : Dialect) (qualified : Bool) (c : Char) (rest : List Char) :
    ∃ first others, dialect.spelling.write qualified (Piece.split (c :: rest)) = first :: others ∧
      (first = c ∨ Text.isNameStart c = true ∧ Text.isNameStart first = true ∨ c = '|' ∧ first = '+') := by
  rw [Piece.split]
  by_cases quote : c = '\''
  · rw [if_pos quote]
    exact ⟨c, _, rfl, .inl rfl⟩
  · rw [if_neg quote]
    by_cases bars : c = '|' ∧ rest.head? = some '|'
    · obtain ⟨first, tail, spelled, operator⟩ := concat_start dialect
      rw [if_pos bars, Spelling.write.eq_3, spelled]
      refine ⟨first, _, rfl, ?_⟩
      rcases operator with rfl | rfl
      · exact .inl bars.1.symm
      · exact .inr (.inr ⟨bars.1, rfl⟩)
    · rw [if_neg bars]
      by_cases start : Text.isNameStart c = true
      · rw [if_pos start]
        generalize Piece.split (rest.dropWhile Text.isNamePart) = pieces
        cases renamed : dialect.spelling.renamed? qualified (c :: rest.takeWhile Text.isNamePart) pieces with
        | none =>
          rw [Spelling.write_kept _ _ renamed]
          exact ⟨c, _, rfl, .inl rfl⟩
        | some name =>
          obtain ⟨-, function, found⟩ := Spelling.renamed_call _ renamed
          obtain ⟨first, tail, spelled, initial⟩ := renamed_start dialect found
          obtain ⟨others, written⟩ := Spelling.write_called _ qualified renamed
          rw [written, spelled]
          exact ⟨first, _, rfl, .inr (.inl ⟨start, initial⟩)⟩
      · rw [if_neg start]
        exact ⟨c, _, rfl, .inl rfl⟩

theorem write_start (dialect : Dialect) (qualified : Bool) (c : Char) (rest : List Char) :
    ∃ first others, dialect.spelling.write qualified (Piece.split (c :: rest)) = first :: others ∧
      (first = '(' ∨ first = ')' → c = first ∧ others = dialect.spelling.write false (Piece.split rest)) := by
  obtain ⟨first, others, written, begins⟩ := write_first dialect qualified c rest
  refine ⟨first, others, written, ?_⟩
  intro parenthesis
  rcases begins with rfl | ⟨-, start⟩ | ⟨-, rfl⟩
  · refine ⟨rfl, ?_⟩
    rcases parenthesis with rfl | rfl
    all_goals
      rw [Piece.split_separator ⟨by decide, by decide, by decide, by decide⟩, Spelling.write] at written
      exact (List.cons.inj written).2.symm
  · rcases parenthesis with rfl | rfl <;> cases start
  · rcases parenthesis with closing | closing <;> cases closing

theorem respell_single (dialect : Dialect) {text : String} {c : Char} (parenthesis : c = '(' ∨ c = ')')
    (single : (dialect.respell text).toList = [c]) : text.toList = [c] := by
  rw [respell_chars] at single
  cases chars : text.toList with
  | nil =>
    rw [chars, Piece.split] at single
    cases single
  | cons d rest =>
    obtain ⟨first, others, written, same⟩ := write_start dialect false d rest
    rw [chars, written] at single
    obtain ⟨rfl, none⟩ := List.cons.inj single
    obtain ⟨rfl, remaining⟩ := same parenthesis
    cases rest with
    | nil => rfl
    | cons e rest =>
      obtain ⟨_, _, more, -⟩ := write_start dialect false e rest
      rw [remaining, more] at none
      cases none

theorem respell_phrase (dialect : Dialect) {left : String} (closed : Text.Closed left) {operator : String}
    (plain : '\'' ∉ operator.toList ∧ '|' ∉ operator.toList ∧ '(' ∉ operator.toList) (right : String) :
    dialect.respell (left ++ " " ++ operator ++ " " ++ right) =
      dialect.respell left ++ " " ++ operator ++ " " ++ dialect.respell right := by
  have quiet : Text.Closed operator := Text.closed_plain plain.1
  have kept : dialect.respell operator = operator := respell_plain dialect plain.2.1 plain.2.2
  have space : Text.Closed " " := Text.closed_plain (by decide)
  have front := Text.closed_append (Text.closed_append closed space) quiet
  rw [respell_spaced dialect front, respell_spaced dialect closed, kept]

end Dialect

end PipeSql
