import PipeSql.Proofs.Dialect.Respell
import PipeSql.Proofs.Token.Sound

set_option autoImplicit false

namespace PipeSql

namespace Text

-- What follows a text neither continues its last piece nor calls it.
def Stops (rest : List Char) : Prop :=
  ∀ c, rest.head? = some c → Piece.Separates c ∧ c ≠ '(' ∧ c ≠ '.'

theorem stops_nil : Stops [] := by
  rintro c ⟨⟩

theorem stops_space (rest : List Char) : Stops (' ' :: rest) := by
  rintro c ⟨⟩
  exact ⟨Piece.space_separates, by decide, by decide⟩

theorem stops_closing (rest : List Char) : Stops (')' :: rest) := by
  rintro c ⟨⟩
  exact ⟨Piece.closing_separates, by decide, by decide⟩

theorem stops_comma (rest : List Char) : Stops (',' :: rest) := by
  rintro c ⟨⟩
  exact ⟨⟨by decide, by decide, by decide, by decide⟩, by decide, by decide⟩

theorem stops_append {first rest : List Char} (begun : Stops first) (ended : Stops rest) : Stops (first ++ rest) := by
  cases first with
  | nil => exact ended
  | cons c others => exact begun

-- Nothing in the text is respelled: no literal starts in it, nothing is called and nothing is concatenated.
structure Plain (text : String) : Prop where
  quote : '\'' ∉ text.toList
  bar : '|' ∉ text.toList
  call : '(' ∉ text.toList

theorem plain_append {left right : String} (leftPlain : Plain left) (rightPlain : Plain right) : Plain (left ++ right) := by
  constructor
  all_goals
    rw [String.toList_append, List.mem_append, not_or]
  · exact ⟨leftPlain.quote, rightPlain.quote⟩
  · exact ⟨leftPlain.bar, rightPlain.bar⟩
  · exact ⟨leftPlain.call, rightPlain.call⟩

theorem plain_path {text : String} (path : ∀ c ∈ text.toList, c = '.' ∨ isNamePart c = true) : Plain text := by
  constructor <;> exact fun member => absurd (path _ member) (by decide)

theorem plain_word {word : String} (sound : isWord word.toList = true) : Plain word :=
  plain_path fun c member => .inr (Token.word_parts _ sound c member)

theorem plain_table {table : String} (sound : (Token.tableWildcard table).Sound) : Plain table := by
  obtain ⟨first, parts, chars, firstWord, words⟩ := sound
  have path : ∀ c ∈ Token.pathChars parts, c = '.' ∨ isNamePart c = true := by
    intro c member
    clear chars
    induction parts with
    | nil => cases member
    | cons part rest ih =>
      simp only [Token.pathChars, List.cons_append, List.mem_cons, List.mem_append] at member
      rcases member with dot | member | member
      · exact .inl dot
      · exact .inr (Token.word_parts part (words part (.head _)) c member)
      · exact ih (fun other present => words other (.tail _ present)) member
  refine plain_path fun c member => ?_
  rw [chars, List.mem_append] at member
  rcases member with member | member
  · exact .inr (Token.word_parts first firstWord c member)
  · exact path c member

theorem digit_parts {chars : List Char} (sound : isDigits chars = true) : ∀ c ∈ chars, isNamePart c = true := by
  intro c member
  rw [isDigits, Bool.and_eq_true, List.all_eq_true] at sound
  simp only [isNamePart, Char.isAlphanum, sound.2 c member, Bool.or_true, Bool.true_or]

theorem plain_digits {digits : String} (sound : isDigits digits.toList = true) : Plain digits :=
  plain_path fun c member => .inr (digit_parts sound c member)

theorem plain_decimal {digits : String} (sound : (Token.decimal digits).Sound) : Plain digits := by
  obtain ⟨whole, fraction, chars, wholeDigits, fractionDigits⟩ := sound
  refine plain_path fun c member => ?_
  rw [chars, List.mem_append, List.mem_cons] at member
  rcases member with member | dot | member
  · exact .inr (digit_parts wholeDigits c member)
  · exact .inl dot
  · exact .inr (digit_parts fractionDigits c member)

end Text

open Text

namespace Piece

-- The first piece is a single character only if the text begins with it.
theorem split_first {c d : Char} {rest : List Char} {others : List Piece} (found : split (c :: rest) = .other d :: others) :
    c = d := by
  rw [split] at found
  split at found
  · cases found
  · split at found
    · cases found
    · split at found
      · cases found
      · cases found
        rfl

theorem split_word {word rest : List Char} (sound : isWord word = true) (breaks : Breaks rest) :
    split (word ++ rest) = .word word :: split rest := by
  cases word with
  | nil => cases sound
  | cons c parts =>
    rw [isWord, Bool.and_eq_true, List.all_eq_true] at sound
    have quote : c ≠ '\'' := by
      rintro rfl
      exact absurd sound.1 (by decide)
    have bar : ¬(c = '|' ∧ (parts ++ rest).head? = some '|') := by
      rintro ⟨rfl, _⟩
      exact absurd sound.1 (by decide)
    rw [List.cons_append, split, if_neg quote, if_neg bar, if_pos sound.1, List.takeWhile_append_of_pos sound.2,
      List.dropWhile_append_of_pos sound.2, breaks_take breaks, breaks_drop breaks, List.append_nil]

end Piece

namespace Dialect

variable {dialect : Dialect} {text other next after : String}

-- Whatever follows, the text is respelled as `other` and the rest as if it stood alone.
def Spells (dialect : Dialect) (text other : String) : Prop :=
  ∀ rest, Stops rest → dialect.spelling.write false (Piece.split (text.toList ++ rest)) =
    other.toList ++ dialect.spelling.write false (Piece.split rest)

theorem spells_respell (spells : dialect.Spells text other) : dialect.respell text = other := by
  have whole := spells [] stops_nil
  rw [List.append_nil, ← respell_chars] at whole
  apply String.toList_inj.1
  rw [whole, Piece.split, Spelling.write, List.append_nil]

theorem spells_plain (dialect : Dialect) (plain : Plain text) : dialect.Spells text text := by
  have kept : dialect.spelling.write false (Piece.split text.toList) = text.toList := by
    rw [← respell_chars, respell_plain dialect plain.bar plain.call]
  intro rest stops
  cases rest with
  | nil => rw [List.append_nil, kept, Piece.split, Spelling.write, List.append_nil]
  | cons c rest =>
    obtain ⟨separates, opening, dot⟩ := stops c rfl
    -- a closing parenthesis behind the text must not meet an opening one in it
    have filled : (Piece.split text.toList).getLast? ≠ some (.other '(') := by
      intro last
      apply plain.call
      rw [← Piece.split_chars text.toList]
      exact List.mem_flatMap.2 ⟨_, List.mem_of_getLast? last, .head _⟩
    rw [Piece.split_separated separates (alike_of_no_quote plain.quote),
      Spelling.write_separated _ _ opening dot _ _ fun _ => filled, kept, Piece.split_separator separates, Spelling.write,
      beq_eq_false_iff_ne.2 dot]

theorem spells_literal (dialect : Dialect) (value : String) : dialect.Spells (sqlLiteral value) (sqlLiteral value) := by
  intro rest stops
  have outside : rest.head? ≠ some '\'' := fun quote => (stops _ quote).1.quote rfl
  have chars : (sqlLiteral value).toList = '\'' :: (doubleQuotes value.toList ++ ['\'']) := by
    simp [sqlLiteral, escapeLiteral]
  rw [chars, List.cons_append, List.append_assoc, List.singleton_append, Piece.split_literal, Piece.literal_end_quoted,
    Piece.literal_end_closing rest outside, Spelling.write]

theorem spells_concat (dialect : Dialect) : dialect.Spells "||" dialect.concatOperator := by
  intro rest stops
  have bars : Piece.split ('|' :: '|' :: rest) = .bars :: Piece.split rest := by
    rw [Piece.split, if_neg (by decide), if_pos ⟨rfl, rfl⟩]
    rfl
  change dialect.spelling.write false (Piece.split ('|' :: '|' :: rest)) = _
  rw [bars, Spelling.write]
  rfl

-- A single bar is no concatenation.
theorem spells_pipe (dialect : Dialect) : dialect.Spells "|>" "|>" := by
  intro rest _
  have single : Piece.split ('|' :: '>' :: rest) = .other '|' :: .other '>' :: Piece.split rest := by
    rw [Piece.split, if_neg (by decide), if_neg (by simp), if_neg (by decide),
      Piece.split_separator ⟨by decide, by decide, by decide, by decide⟩]
  change dialect.spelling.write false (Piece.split ('|' :: '>' :: rest)) = _
  rw [single, Spelling.write, Spelling.write]
  rfl

-- In front of a text a separating character changes nothing.
theorem spells_behind {c : Char} {mark : String} (single : mark.toList = [c]) (separates : Piece.Separates c)
    (dot : c ≠ '.') (spells : dialect.Spells text other) : dialect.Spells (mark ++ text) (mark ++ other) := by
  intro rest stops
  rw [String.toList_append, String.toList_append, single, List.append_assoc, List.singleton_append,
    Piece.split_separator separates, Spelling.write, beq_eq_false_iff_ne.2 dot, spells rest stops]
  rfl

-- A text that can stand behind any other one, since it begins with a separator if it is not empty.
structure Follows (dialect : Dialect) (text other : String) : Prop where
  spells : dialect.Spells text other
  stops : Stops text.toList

theorem spells_append (begun : dialect.Spells text other) (ended : dialect.Follows next after) :
    dialect.Spells (text ++ next) (other ++ after) := by
  intro rest stops
  rw [String.toList_append, String.toList_append, List.append_assoc, begun _ (stops_append ended.stops stops),
    ended.spells rest stops, List.append_assoc]

theorem follows_space (spells : dialect.Spells text other) : dialect.Follows (" " ++ text) (" " ++ other) := by
  refine ⟨spells_behind rfl Piece.space_separates (by decide) spells, ?_⟩
  rw [String.toList_append]
  exact stops_space _

theorem spells_phrase (begun : dialect.Spells text other) (ended : dialect.Spells next after) :
    dialect.Spells (text ++ " " ++ next) (other ++ " " ++ after) := by
  rw [String.append_assoc, String.append_assoc]
  exact spells_append begun (follows_space ended)

theorem spells_enclosed (spells : dialect.Spells text other) : dialect.Spells ("(" ++ text ++ ")") ("(" ++ other ++ ")") := by
  have closing : dialect.Follows ")" ")" := ⟨spells_plain dialect ⟨by decide, by decide, by decide⟩, stops_closing []⟩
  rw [String.append_assoc, String.append_assoc]
  exact spells_behind rfl ⟨by decide, by decide, by decide, by decide⟩ (by decide) (spells_append spells closing)

variable {word name : String}

theorem call_split (sound : isWord word.toList = true) (rest : List Char) :
    Piece.split ((word ++ "(").toList ++ rest) = .word word.toList :: .other '(' :: Piece.split rest := by
  have chars : (word ++ "(").toList ++ rest = word.toList ++ '(' :: rest := by simp
  have opening : Piece.Separates '(' := ⟨by decide, by decide, by decide, by decide⟩
  rw [chars, Piece.split_word sound (breaks_cons opening.part _), Piece.split_separator opening]

theorem call_renamed (dialect : Dialect) (word : String) (pieces : List Piece) :
    dialect.spelling.renamed? false word.toList (.other '(' :: pieces) = dialect.rename? (asciiUpper word) := by
  change dialect.rename? (asciiUpper (String.ofList word.toList)) = _
  rw [String.ofList_toList]

theorem arguments_written (spells : dialect.Spells text other) {rest : List Char} (stops : Stops rest) :
    dialect.spelling.write false (.other '(' :: Piece.split (text.toList ++ rest)) =
      '(' :: other.toList ++ dialect.spelling.write false (Piece.split rest) := by
  rw [Spelling.write, beq_eq_false_iff_ne.2 (by decide), spells rest stops]
  rfl

theorem spells_kept_call (sound : isWord word.toList = true) (kept : dialect.rename? (asciiUpper word) = none)
    (spells : dialect.Spells text other) : dialect.Spells (word ++ "(" ++ text) (word ++ "(" ++ other) := by
  intro rest stops
  rw [String.toList_append, List.append_assoc, call_split sound,
    Spelling.write_kept _ _ ((call_renamed dialect word _).trans kept), arguments_written spells stops]
  simp

-- The arguments do not begin with the closing parenthesis, so there is no empty list to drop.
theorem spells_renamed_call (sound : isWord word.toList = true) (renamed : dialect.rename? (asciiUpper word) = some name)
    (spells : dialect.Spells text other) (filled : text.toList.head?.any (· != ')') = true) :
    dialect.Spells (word ++ "(" ++ text) (name ++ "(" ++ other) := by
  intro rest stops
  have notEmptied : ∀ others, (Piece.other '(' :: Piece.split (text.toList ++ rest) : List Piece) ≠
      .other '(' :: .other ')' :: others := by
    intro others emptied
    cases chars : text.toList with
    | nil =>
      rw [chars] at filled
      cases filled
    | cons c inner =>
      rw [chars] at filled emptied
      have first := Piece.split_first (List.cons.inj emptied).2
      rw [first] at filled
      cases filled
  rw [String.toList_append, List.append_assoc, call_split sound,
    Spelling.write_renamed _ _ notEmptied ((call_renamed dialect word _).trans renamed), arguments_written spells stops]
  simp

theorem spells_empty_call (sound : isWord word.toList = true) (renamed : dialect.rename? (asciiUpper word) = some name) :
    dialect.Spells (word ++ "()") (name ++ if Spelling.isBare name then "" else "()") := by
  intro rest _
  have opened : "()" = "(" ++ ")" := rfl
  rw [opened, ← String.append_assoc, String.toList_append, List.append_assoc, call_split sound]
  change dialect.spelling.write false (.word word.toList :: .other '(' :: Piece.split (')' :: rest)) = _
  rw [Piece.split_separator Piece.closing_separates,
    Spelling.write_emptied _ _ ((call_renamed dialect word _).trans renamed), String.toList_append]
  cases Spelling.isBare name <;> rfl

end Dialect

end PipeSql
