import PipeSql.Proofs.Token.Lexed

set_option autoImplicit false

namespace PipeSql

namespace Token

def Spelled : Token → List Char → Prop
  | .keyword word, text => Text.isWord text = true ∧ Keyword.ofWord? (String.ofList text) = some word
  | .ident name, text => Text.isWord text = true ∧ text = name.toList
  | .qualified parts, text => ∃ first others, Text.isWord first = true ∧ (∀ part ∈ others, Text.isWord part = true) ∧
      parts = (first :: others).map String.ofList ∧ text = first ++ pathChars others
  | .tableWildcard table, text => ∃ first others, Text.isWord first = true ∧
      (∀ part ∈ others, Text.isWord part = true) ∧ table.toList = first ++ pathChars others ∧
      text = table.toList ++ ['.', '*']
  | .param name, text => Text.isWord name.toList = true ∧ text = '@' :: name.toList
  | .str _, text => ∃ raw, text = '\'' :: raw
  | .int digits, text => Text.isDigits text = true ∧ text = digits.toList
  | .decimal digits, text => ∃ whole fraction, Text.isDigits whole = true ∧ Text.isDigits fraction = true ∧
      text = whole ++ '.' :: fraction ∧ text = digits.toList
  | .symbol mark, text => (text, mark) ∈ Symbol.table

theorem of_path_spelled (first : List Char) (parts : List (List Char)) (word : Text.isWord first = true)
    (words : ∀ part ∈ parts, Text.isWord part = true) : (ofPath first parts).Spelled (first ++ pathChars parts) := by
  cases parts with
  | nil =>
    rw [ofPath, pathChars, List.append_nil]
    split
    · rename_i found
      exact ⟨word, found⟩
    · exact ⟨word, String.toList_ofList.symm⟩
  | cons second others => exact ⟨first, second :: others, word, words, rfl, rfl⟩

theorem scan_name_spelled {first rest text after : List Char} {token : Token} (word : Text.isWord first = true)
    (found : scanName first rest = .found token text after) : token.Spelled text := by
  have words := dotted_parts_words rest
  unfold scanName at found
  split at found
  · cases found
    exact ⟨first, (dottedParts rest).1, word, words, String.toList_ofList, by rw [String.toList_ofList]⟩
  · cases found
  · cases found
    exact of_path_spelled first _ word words

theorem scan_number_spelled {whole rest text after : List Char} {token : Token} (digits : Text.isDigits whole = true)
    (found : scanNumber whole rest = .found token text after) : token.Spelled text := by
  unfold scanNumber at found
  split at found
  · split at found
    · rename_i d beyond digit
      cases found
      exact ⟨whole, _, digits, is_digits_take d beyond digit, rfl, String.toList_ofList.symm⟩
    · cases found
  · cases found
  · cases found
    exact ⟨digits, String.toList_ofList.symm⟩

theorem scan_symbol_spelled {chars text after : List Char} {token : Token}
    (found : scanSymbol chars = .found token text after) : token.Spelled text := by
  unfold scanSymbol at found
  split at found
  · rename_i spelling mark listed
    cases found
    exact List.mem_of_find?_eq_some listed
  · split at found
    · cases found
    · split at found <;> cases found

-- All that a token can be read from.
theorem scan_cases {chars text after : List Char} {token : Token} (found : scan chars = .found token text after) :
    (∃ (c : Char) (rest : List Char), Text.isNameStart c = true ∧
      scanName (c :: rest.takeWhile Text.isNamePart) (rest.dropWhile Text.isNamePart) = .found token text after) ∨
    (∃ (c : Char) (rest : List Char), c.isDigit = true ∧
      scanNumber (c :: rest.takeWhile Char.isDigit) (rest.dropWhile Char.isDigit) = .found token text after) ∨
    (∃ rest value raw, chars = '\'' :: rest ∧ literal? rest = some (value, raw, after) ∧
      token = .str (String.ofList value) ∧ text = '\'' :: raw) ∨
    (∃ (d : Char) (rest : List Char), Text.isNameStart d = true ∧
      token = .param (String.ofList (d :: rest.takeWhile Text.isNamePart)) ∧
      text = '@' :: d :: rest.takeWhile Text.isNamePart ∧ after = rest.dropWhile Text.isNamePart) ∨
    scanSymbol chars = .found token text after := by
  cases chars with
  | nil => cases found
  | cons c rest =>
    unfold scan at found
    dsimp only at found
    split at found
    · rename_i start
      exact .inl ⟨c, rest, start, found⟩
    · split at found
      · rename_i digit
        exact .inr (.inl ⟨c, rest, digit, found⟩)
      · split at found
        · rename_i quote
          split at found
          · rename_i value raw behind closed
            cases found
            exact .inr (.inr (.inl ⟨rest, value, raw, by rw [quote], closed, rfl, rfl⟩))
          · cases found
        · split at found
          · split at found
            · split at found
              · rename_i d beyond start
                cases found
                exact .inr (.inr (.inr (.inl ⟨d, beyond, start, rfl, rfl, rfl⟩)))
              · cases found
            · cases found
          · exact .inr (.inr (.inr (.inr found)))

theorem scan_spelled {chars text after : List Char} {token : Token}
    (found : scan chars = .found token text after) : token.Spelled text := by
  rcases scan_cases found with ⟨c, rest, start, found⟩ | ⟨c, rest, digit, found⟩ | ⟨rest, value, raw, -, -, rfl, rfl⟩ |
    ⟨d, rest, start, rfl, rfl, -⟩ | found
  · exact scan_name_spelled (is_word_take c rest start) found
  · exact scan_number_spelled (is_digits_take c rest digit) found
  · exact ⟨raw, rfl⟩
  · rw [Spelled, String.toList_ofList]
    exact ⟨is_word_take d rest start, rfl⟩
  · exact scan_symbol_spelled found

theorem literal_closed {raw after : List Char} {value : String}
    (found : scan ('\'' :: raw ++ after) = .found (.str value) ('\'' :: raw) after) :
    ∃ inner, value = String.ofList inner ∧ literal? (raw ++ after) = some (inner, raw, after) := by
  unfold scan at found
  dsimp only [List.cons_append] at found
  rw [if_neg (by decide), if_neg (by decide), if_pos rfl] at found
  split at found
  · rename_i inner shown behind closed
    cases found
    exact ⟨inner, rfl, closed⟩
  · cases found

-- Tokens that end in a name.
def endsName : Token → Bool
  | .keyword _ | .ident _ | .qualified _ | .param _ => true
  | _ => false

-- No name goes on at the front of the text.
def NameEnds (chars : List Char) : Prop :=
  ∀ c rest, chars = c :: rest → Text.isNamePart c = false

theorem name_ends_drop (chars : List Char) : NameEnds (chars.dropWhile Text.isNamePart) := by
  intro c rest same
  have stopped := List.head?_dropWhile_not Text.isNamePart chars
  rw [same] at stopped
  simpa using stopped

theorem dotted_parts_end {chars : List Char} (ended : NameEnds chars) : NameEnds (dottedParts chars).2 := by
  fun_induction dottedParts chars with
  | case1 c rest start parts after found ih =>
    rw [found] at ih
    exact ih (name_ends_drop rest)
  | case2 c rest start => exact ended
  | case3 rest other => exact ended

theorem scan_ends {chars text after : List Char} {token : Token} (found : scan chars = .found token text after)
    (name : token.endsName = true) : NameEnds after := by
  rcases scan_cases found with ⟨c, rest, start, found⟩ | ⟨c, rest, digit, found⟩ | ⟨rest, value, raw, -, -, rfl, rfl⟩ |
    ⟨d, rest, start, rfl, rfl, rfl⟩ | found
  · have ended := dotted_parts_end (name_ends_drop rest)
    unfold scanName at found
    split at found
    · cases found
      cases name
    · cases found
    · cases found
      exact ended
  · unfold scanNumber at found
    split at found
    · split at found
      · cases found
        cases name
      · cases found
    · cases found
    · cases found
      cases name
  · cases name
  · exact name_ends_drop rest
  · unfold scanSymbol at found
    split at found
    · cases found
      cases name
    · split at found
      · cases found
      · split at found <;> cases found

theorem path_chars (parts : List (List Char)) (words : ∀ part ∈ parts, Text.isWord part = true) :
    ∀ c ∈ pathChars parts, Text.isNamePart c = true ∨ c = '.' := by
  induction parts with
  | nil => exact fun _ member => absurd member List.not_mem_nil
  | cons part rest ih =>
    intro c member
    rcases List.mem_cons.1 member with rfl | member
    · exact .inr rfl
    · rcases List.mem_append.1 member with member | member
      · exact .inl (word_parts part (words part (.head _)) c member)
      · exact ih (fun other present => words other (.tail _ present)) c member

theorem digits_parts {digits : List Char} (number : Text.isDigits digits = true) :
    ∀ c ∈ digits, Text.isNamePart c = true := by
  rw [Text.isDigits, Bool.and_eq_true, List.all_eq_true] at number
  exact fun c member => digit_part (number.2 c member)

-- What else but letters, digits and underscores is read for a token that is neither a string nor a symbol.
theorem spelled_chars {token : Token} {text : List Char} (spelled : token.Spelled text)
    (plain : ∀ value, token ≠ .str value) (wordy : ∀ mark, token ≠ .symbol mark) :
    ∀ c ∈ text, Text.isNamePart c = true ∨ c = '.' ∨ c = '*' ∨ c = '@' := by
  intro c member
  cases token with
  | keyword word => exact .inl (word_parts text spelled.1 c member)
  | ident name => exact .inl (word_parts text spelled.1 c member)
  | qualified parts =>
    obtain ⟨first, others, word, words, -, rfl⟩ := spelled
    rcases List.mem_append.1 member with member | member
    · exact .inl (word_parts first word c member)
    · exact (path_chars others words c member).imp_right .inl
  | tableWildcard table =>
    obtain ⟨first, others, word, words, same, rfl⟩ := spelled
    rw [same, List.mem_append, List.mem_append] at member
    rcases member with (member | member) | member
    · exact .inl (word_parts first word c member)
    · exact (path_chars others words c member).imp_right .inl
    · simp only [List.mem_cons, List.not_mem_nil, or_false] at member
      exact .inr (member.imp_right .inl)
  | param name =>
    obtain ⟨word, rfl⟩ := spelled
    rcases List.mem_cons.1 member with rfl | member
    · exact .inr (.inr (.inr rfl))
    · exact .inl (word_parts _ word c member)
  | str value => exact absurd rfl (plain value)
  | int digits => exact .inl (digits_parts spelled.1 c member)
  | decimal digits =>
    obtain ⟨whole, fraction, wholeDigits, fractionDigits, rfl, -⟩ := spelled
    rw [List.mem_append, List.mem_cons] at member
    rcases member with member | rfl | member
    · exact .inl (digits_parts wholeDigits c member)
    · exact .inr (.inl rfl)
    · exact .inl (digits_parts fractionDigits c member)
  | symbol mark => exact absurd rfl (wordy mark)

-- Only strings have quotes, and a dash stands alone.
theorem spelled_quiet {token : Token} {text : List Char} (spelled : token.Spelled text)
    (plain : ∀ value, token ≠ .str value) : '\'' ∉ text ∧ ('-' ∉ text ∨ text = ['-']) := by
  by_cases marked : ∃ mark, token = .symbol mark
  · obtain ⟨mark, rfl⟩ := marked
    have listed : ∀ entry ∈ Symbol.table, '\'' ∉ entry.1 ∧ ('-' ∉ entry.1 ∨ entry.1 = ['-']) := by decide
    exact listed _ spelled
  · have chars := spelled_chars spelled plain fun mark same => marked ⟨mark, same⟩
    constructor
    · intro member
      exact absurd (chars _ member) (by decide)
    · refine .inl fun member => ?_
      exact absurd (chars _ member) (by decide)

-- A gap ends at a character that is no blank and begins no comment.
theorem gap_stops (inComment : Bool) (chars : List Char) {c : Char} {rest : List Char}
    (stopped : (gap inComment chars).2 = c :: rest) :
    Text.isBlank c = false ∧ ¬ (c = '-' ∧ rest.head? = some '-') := by
  induction chars generalizing inComment with
  | nil => cases stopped
  | cons first others ih =>
    unfold gap at stopped
    split at stopped
    · exact ih _ stopped
    · split at stopped
      · exact ih _ stopped
      · rename_i visible
        split at stopped
        · exact ih _ stopped
        · rename_i dashes
          cases stopped
          exact ⟨Bool.eq_false_iff.2 visible, dashes⟩

end Token

namespace Lexeme

-- The first token of a text that starts at an offset: what is skipped in front of it, its lexeme and what follows.
structure Opens (offset : Nat) (chars : List Char) (lexeme : Lexeme) (skipped text after : List Char) : Prop where
  gap : Token.gap false chars = (skipped, text ++ after)
  scanned : Token.scan (text ++ after) = .found lexeme.token text after
  start : lexeme.span.start = offset + Text.width skipped
  stop : lexeme.span.stop = lexeme.span.start + Text.width text

theorem Opens.whole {offset : Nat} {chars : List Char} {lexeme : Lexeme} {skipped text after : List Char}
    (opens : Opens offset chars lexeme skipped text after) : chars = skipped ++ (text ++ after) := by
  have parts := Token.gap_append false chars
  rw [opens.gap] at parts
  exact parts.symm

theorem read_cons {offset : Nat} {chars : List Char} {lexeme : Lexeme} {others : List Lexeme}
    (accepted : read offset chars = .ok (lexeme :: others)) :
    ∃ skipped text after, Opens offset chars lexeme skipped text after ∧ read lexeme.span.stop after = .ok others := by
  have whole : Token.gap false chars = ((Token.gap false chars).1, (Token.gap false chars).2) := rfl
  rw [read_round] at accepted
  split at accepted
  · cases accepted
  · rename_i c rest body
    rw [body] at whole
    split at accepted
    · cases accepted
    · rename_i token text after found
      obtain ⟨pieces, -⟩ := Token.scan_append found
      cases inner : read (offset + Text.width (Token.gap false chars).1 + Text.width text) after with
      | error fault =>
        rw [inner] at accepted
        cases accepted
      | ok rest =>
        rw [inner] at accepted
        cases accepted
        rw [← pieces] at whole found
        exact ⟨_, text, after, ⟨whole, found, rfl, rfl⟩, inner⟩

end Lexeme

def Span.textIn (source : String) (span : Span) : String :=
  String.ofList (Text.splitWidth (span.stop - span.start) (Text.splitWidth span.start source.toList).2).1

theorem Text.split_width (before after : List Char) :
    splitWidth (width before) (before ++ after) = (before, after) := by
  induction before with
  | nil =>
    cases after with
    | nil => rfl
    | cons c rest =>
      have positive := c.utf8Size_pos
      rw [List.nil_append, splitWidth, if_neg (by rw [width]; omega)]
  | cons c rest ih =>
    rw [List.cons_append, splitWidth, if_pos (by rw [width]; omega), width, Nat.add_sub_cancel_left, ih]

theorem Span.text_in_split {source : String} {before text after : List Char} {span : Span}
    (whole : source.toList = before ++ (text ++ after)) (start : span.start = Text.width before)
    (stop : span.stop = span.start + Text.width text) : span.textIn source = String.ofList text := by
  have width : span.stop - span.start = Text.width text := by omega
  rw [Span.textIn, width, start, whole, Text.split_width, Text.split_width]

end PipeSql
