import Mathlib.Data.List.Forall2
import Mathlib.Data.List.TakeWhile
import PipeSql.Dialect.Spelling
import PipeSql.Proofs.Text.Literal

set_option autoImplicit false

namespace PipeSql

open Text

theorem double_quotes_append (left right : List Char) :
    doubleQuotes (left ++ right) = doubleQuotes left ++ doubleQuotes right := by
  induction left with
  | nil => rfl
  | cons c rest ih =>
    by_cases quote : c = '\''
    · simp [doubleQuotes, quote, ih]
    · simp [doubleQuotes, quote, ih]

namespace Piece

theorem literal_end_quoted (value rest : List Char) :
    literalEnd (doubleQuotes value ++ rest) =
      (doubleQuotes value ++ (literalEnd rest).1, (literalEnd rest).2) := by
  induction value with
  | nil => rfl
  | cons c value ih =>
    by_cases quote : c = '\''
    · simp [doubleQuotes, literalEnd, quote, ih]
    · simp [doubleQuotes, literalEnd, quote, ih]

theorem literal_end_closing (tail : List Char) (outside : tail.head? ≠ some '\'') :
    literalEnd ('\'' :: tail) = (['\''], tail) := by
  cases tail with
  | nil => rfl
  | cons c rest =>
    have different : c ≠ '\'' := by simpa using outside
    simp [literalEnd, different]

-- Literals that follow each other at once are one literal, so the contents grow along the way.
theorem literal_end_alike {a b : List Char} (alike : Alike a b) (x y : List Char) :
    ∃ x' y' a' b', Alike a' b' ∧ a'.length ≤ a.length ∧
      (∀ tail : List Char, tail.head? ≠ some '\'' →
        literalEnd (doubleQuotes x ++ '\'' :: (a ++ tail)) = (doubleQuotes x' ++ ['\''], a' ++ tail)) ∧
      ∀ tail : List Char, tail.head? ≠ some '\'' →
        literalEnd (doubleQuotes y ++ '\'' :: (b ++ tail)) = (doubleQuotes y' ++ ['\''], b' ++ tail) := by
  induction alike generalizing x y with
  | nil =>
    refine ⟨x, y, [], [], .nil, Nat.le_refl _, ?_, ?_⟩
    all_goals
      intro tail outside
      rw [literal_end_quoted, List.nil_append, literal_end_closing tail outside]
  | other c a b outside rest ih =>
    refine ⟨x, y, c :: a, c :: b, .other c a b outside rest, Nat.le_refl _, ?_, ?_⟩
    all_goals
      intro tail _
      rw [literal_end_quoted, literal_end_closing _ (by simpa using outside)]
  | literal u v a b rest ih =>
    obtain ⟨x', y', a', b', alike', shorter, left, right⟩ := ih (x ++ '\'' :: u) (y ++ '\'' :: v)
    refine ⟨x', y', a', b', alike', ?_, ?_, ?_⟩
    · simp only [List.length_cons, List.length_append]
      omega
    · intro tail outside
      have merged := left tail outside
      rw [double_quotes_append] at merged
      simpa [doubleQuotes] using merged
    · intro tail outside
      have merged := right tail outside
      rw [double_quotes_append] at merged
      simpa [doubleQuotes] using merged

inductive Alike : Piece → Piece → Prop where
  | literal (x y : List Char) :
      Alike (.literal ('\'' :: (doubleQuotes x ++ ['\'']))) (.literal ('\'' :: (doubleQuotes y ++ ['\''])))
  | bars : Alike .bars .bars
  | word (chars : List Char) (outside : '\'' ∉ chars) : Alike (.word chars) (.word chars)
  | other (c : Char) (outside : c ≠ '\'') : Alike (.other c) (.other c)

theorem split_literal (rest : List Char) :
    split ('\'' :: rest) = .literal ('\'' :: (literalEnd rest).1) :: split (literalEnd rest).2 := by
  rw [split, if_pos rfl]

theorem name_part_quote : isNamePart '\'' = false := by decide

theorem not_mem_take_while_name (rest : List Char) : '\'' ∉ rest.takeWhile isNamePart := by
  intro present
  have part := List.mem_takeWhile_imp present
  rw [name_part_quote] at part
  cases part

-- By induction on the length, since a piece may take many characters.
theorem split_alike {a b : List Char} (alike : Text.Alike a b) : List.Forall₂ Alike (split a) (split b) := by
  generalize bound : a.length = size
  induction size using Nat.strongRecOn generalizing a b with
  | ind size ih =>
    cases alike with
    | nil =>
      rw [split]
      exact .nil
    | literal x y a b rest =>
      obtain ⟨x', y', a', b', alike', shorter, left, right⟩ := literal_end_alike rest x y
      have leftEnd := left [] (by simp)
      have rightEnd := right [] (by simp)
      simp only [List.append_nil] at leftEnd rightEnd
      rw [split_literal, split_literal, leftEnd, rightEnd]
      refine .cons (.literal x' y') (ih a'.length ?_ alike' rfl)
      simp only [List.length_cons, List.length_append] at bound
      omega
    | other c a b outside rest =>
      simp only [List.length_cons] at bound
      rw [split, split, if_neg outside, if_neg outside]
      by_cases bars : c = '|' ∧ a.head? = some '|'
      · have bars' : c = '|' ∧ b.head? = some '|' := ⟨bars.1, (alike_head '|' rest).1 bars.2⟩
        rw [if_pos bars, if_pos bars']
        refine .cons .bars (ih a.tail.length ?_ (alike_tail rest (by decide) bars.2) rfl)
        rw [List.length_tail]
        omega
      · have bars' : ¬(c = '|' ∧ b.head? = some '|') := fun both => bars ⟨both.1, (alike_head '|' rest).2 both.2⟩
        rw [if_neg bars, if_neg bars']
        by_cases start : isNameStart c = true
        · rw [if_pos start, if_pos start, alike_take_while rest name_part_quote]
          have shorter := (List.dropWhile_suffix isNamePart (l := a)).length_le
          refine .cons (.word _ ?_) (ih _ ?_ (alike_drop_while rest name_part_quote) rfl)
          · simp only [List.mem_cons, not_or]
            exact ⟨Ne.symm outside, not_mem_take_while_name b⟩
          · omega
        · rw [if_neg start, if_neg start]
          exact .cons (.other c outside) (ih a.length (by omega) rest rfl)

end Piece

namespace Spelling

def Quiet (spelling : Spelling) : Prop :=
  '\'' ∉ spelling.concat.toList ∧ ∀ word name, spelling.rename word = some name → '\'' ∉ name.toList

-- Only the next piece tells whether a word is called.
theorem renamed_head (spelling : Spelling) (qualified : Bool) (word : List Char) (first : Piece)
    (left right : List Piece) :
    spelling.renamed? qualified word (first :: left) = spelling.renamed? qualified word (first :: right) := by
  cases first with
  | literal | bars | word => rfl
  | other c =>
    by_cases opening : c = '('
    · subst opening
      rfl
    · simp [renamed?, opening]

theorem renamed_alike (spelling : Spelling) (qualified : Bool) (word : List Char) {left right : List Piece}
    (alike : List.Forall₂ Piece.Alike left right) :
    spelling.renamed? qualified word left = spelling.renamed? qualified word right := by
  cases alike with
  | nil => rfl
  | cons first others =>
    cases first with
    | literal => rfl
    | bars | word | other => exact renamed_head spelling qualified word _ _ _

theorem renamed_call (spelling : Spelling) {qualified : Bool} {word : List Char} {rest : List Piece} {name : String}
    (renamed : spelling.renamed? qualified word rest = some name) :
    (∃ others, rest = .other '(' :: others) ∧ ∃ function, spelling.rename function = some name := by
  unfold renamed? at renamed
  split at renamed
  · cases renamed
  · split at renamed
    · exact ⟨⟨_, rfl⟩, _, renamed⟩
    · cases renamed

theorem renamed_quiet (spelling : Spelling) (quiet : spelling.Quiet) {qualified : Bool} {word : List Char}
    {rest : List Piece} {name : String} (renamed : spelling.renamed? qualified word rest = some name) :
    '\'' ∉ name.toList := by
  obtain ⟨-, function, found⟩ := renamed_call spelling renamed
  exact quiet.2 function name found

theorem write_kept (spelling : Spelling) (qualified : Bool) {word : List Char} {rest : List Piece}
    (kept : spelling.renamed? qualified word rest = none) :
    spelling.write qualified (.word word :: rest) = word ++ spelling.write false rest :=
  write.eq_5 spelling qualified word rest kept

theorem write_emptied (spelling : Spelling) (qualified : Bool) {word : List Char} {rest : List Piece}
    {name : String}
    (renamed : spelling.renamed? qualified word (.other '(' :: .other ')' :: rest) = some name) :
    spelling.write qualified (.word word :: .other '(' :: .other ')' :: rest) =
      name.toList ++ (if isBare name then [] else ['(', ')']) ++ spelling.write false rest :=
  write.eq_6 spelling qualified word name rest renamed

theorem write_renamed (spelling : Spelling) (qualified : Bool) {word : List Char} {rest : List Piece}
    {name : String} (filled : ∀ others, rest ≠ .other '(' :: .other ')' :: others)
    (renamed : spelling.renamed? qualified word rest = some name) :
    spelling.write qualified (.word word :: rest) = name.toList ++ spelling.write false rest :=
  write.eq_7 spelling qualified word rest name filled renamed

theorem emptied_alike {left right others : List Piece} (alike : List.Forall₂ Piece.Alike left right)
    (emptied : right = .other '(' :: .other ')' :: others) :
    ∃ others', left = .other '(' :: .other ')' :: others' := by
  subst emptied
  rcases alike with _ | ⟨opening, _ | ⟨closing, alike⟩⟩
  cases opening
  cases closing
  exact ⟨_, rfl⟩

theorem write_alike (spelling : Spelling) (quiet : spelling.Quiet) (qualified : Bool) {left right : List Piece}
    (alike : List.Forall₂ Piece.Alike left right) :
    Text.Alike (spelling.write qualified left) (spelling.write qualified right) := by
  induction qualified, left using write.induct spelling generalizing right with
  | case1 qualified =>
    cases alike
    exact .nil
  | case2 qualified chars rest ih =>
    rcases alike with _ | ⟨first, others⟩
    cases first with
    | literal x y => exact alike_append (alike_literal x y) (ih others)
  | case3 qualified rest ih =>
    rcases alike with _ | ⟨first, others⟩
    cases first
    exact alike_append (alike_of_no_quote quiet.1) (ih others)
  | case4 qualified c rest ih =>
    rcases alike with _ | ⟨first, others⟩
    cases first with
    | other _ outside => exact .other c _ _ outside (ih others)
  | case5 qualified chars rest kept ih =>
    rcases alike with _ | ⟨first, others⟩
    cases first with
    | word _ outside =>
      rw [write_kept spelling qualified kept]
      rw [renamed_alike spelling qualified chars others] at kept
      rw [write_kept spelling qualified kept]
      exact alike_append (alike_of_no_quote outside) (ih others)
  | case6 qualified chars name rest renamed ih =>
    rcases alike with _ | ⟨first, others⟩
    have renamed' := renamed
    rw [renamed_alike spelling qualified chars others] at renamed'
    rcases others with _ | ⟨opening, _ | ⟨closing, others⟩⟩
    cases first
    cases opening
    cases closing
    rw [write_emptied spelling qualified renamed, write_emptied spelling qualified renamed']
    have arguments : Text.Alike (if isBare name then [] else ['(', ')']) (if isBare name then [] else ['(', ')']) := by
      split
      · exact .nil
      · exact alike_of_no_quote (by decide)
    have called := alike_append (alike_of_no_quote (renamed_quiet spelling quiet renamed)) arguments
    exact alike_append called (ih others)
  | case7 qualified chars name rest filled renamed ih =>
    rcases alike with _ | ⟨first, others⟩
    cases first with
    | word _ outside =>
      rw [write_renamed spelling qualified filled renamed]
      rw [renamed_alike spelling qualified chars others] at renamed
      rw [write_renamed spelling qualified (fun _ emptied => (emptied_alike others emptied).elim filled) renamed]
      exact alike_append (alike_of_no_quote (renamed_quiet spelling quiet renamed)) (ih others)

end Spelling

theorem Dialect.spelling_quiet (dialect : Dialect) : dialect.spelling.Quiet := by
  constructor
  · cases dialect <;> decide
  · intro word name renamed
    change dialect.rename? word = some name at renamed
    unfold Dialect.rename? at renamed
    split at renamed <;> cases renamed <;> decide

theorem Dialect.respell_alike (dialect : Dialect) {left right : String}
    (alike : Text.Alike left.toList right.toList) :
    Text.Alike (dialect.respell left).toList (dialect.respell right).toList := by
  simp only [Dialect.respell, Spelling.respell, String.toList_ofList]
  exact Spelling.write_alike _ dialect.spelling_quiet false (Piece.split_alike alike)

end PipeSql
