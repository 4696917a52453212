import PipeSql.Token.Lexer

set_option autoImplicit false

namespace PipeSql

namespace Text

def isWord : List Char → Bool
  | [] => false
  | c :: rest => isNameStart c && rest.all isNamePart

def isDigits (chars : List Char) : Bool :=
  !chars.isEmpty && chars.all Char.isDigit

theorem name_start_part {c : Char} (start : isNameStart c = true) : isNamePart c = true := by
  simp only [isNameStart, isNamePart, Char.isAlphanum, Bool.or_eq_true] at start ⊢
  exact start.imp_left .inl

-- No name goes on here.
def Breaks (rest : List Char) : Prop :=
  ∀ c, rest.head? = some c → isNamePart c = false

theorem breaks_cons {c : Char} (stop : isNamePart c = false) (rest : List Char) : Breaks (c :: rest) := by
  rintro _ ⟨⟩
  exact stop

theorem breaks_take {rest : List Char} (breaks : Breaks rest) : rest.takeWhile isNamePart = [] := by
  cases rest with
  | nil => rfl
  | cons c rest => rw [List.takeWhile_cons, breaks c rfl, if_neg Bool.false_ne_true]

theorem breaks_drop {rest : List Char} (breaks : Breaks rest) : rest.dropWhile isNamePart = rest := by
  have whole := List.takeWhile_append_dropWhile (p := isNamePart) (l := rest)
  rwa [breaks_take breaks, List.nil_append] at whole

end Text

namespace Token

def Sound : Token → Prop
  | .keyword _ => True
  | .ident name => Text.isWord name.toList = true ∧ Keyword.ofWord? name = none
  | .qualified parts => 2 ≤ parts.length ∧ ∀ part ∈ parts, Text.isWord part.toList = true
  | .tableWildcard table => ∃ first parts, table.toList = first ++ pathChars parts ∧
      Text.isWord first = true ∧ ∀ part ∈ parts, Text.isWord part = true
  | .param name => Text.isWord name.toList = true
  | .str _ => True
  | .int digits => Text.isDigits digits.toList = true
  | .decimal digits => ∃ whole fraction, digits.toList = whole ++ '.' :: fraction ∧
      Text.isDigits whole = true ∧ Text.isDigits fraction = true
  | .symbol _ => True

theorem is_word_take (c : Char) (rest : List Char) (start : Text.isNameStart c = true) :
    Text.isWord (c :: rest.takeWhile Text.isNamePart) = true := by
  have parts : (rest.takeWhile Text.isNamePart).all Text.isNamePart = true := List.all_takeWhile
  rw [Text.isWord, start, parts]
  rfl

theorem is_digits_take (d : Char) (rest : List Char) (digit : d.isDigit = true) :
    Text.isDigits (d :: rest.takeWhile Char.isDigit) = true := by
  have parts : (rest.takeWhile Char.isDigit).all Char.isDigit = true := List.all_takeWhile
  simp [Text.isDigits, digit, parts]

theorem dotted_parts_words (chars : List Char) :
    ∀ part ∈ (dottedParts chars).1, Text.isWord part = true := by
  fun_induction dottedParts chars with
  | case1 c rest start parts after found ih =>
    intro part member
    rw [found] at ih
    rcases List.mem_cons.1 member with rfl | member
    · exact is_word_take c rest start
    · exact ih part member
  | case2 c rest start => simp
  | case3 rest other => simp

theorem of_path_sound (first : List Char) (parts : List (List Char)) (word : Text.isWord first = true)
    (words : ∀ part ∈ parts, Text.isWord part = true) : (ofPath first parts).Sound := by
  cases parts with
  | nil =>
    rw [ofPath]
    split
    · trivial
    · rename_i free
      exact ⟨by simpa using word, free⟩
  | cons second others =>
    refine ⟨by simp, ?_⟩
    intro part member
    obtain ⟨chars, present, rfl⟩ := List.mem_map.1 member
    rcases List.mem_cons.1 present with rfl | present
    · simpa using word
    · simpa using words chars present

theorem scan_name_sound (first rest lexeme after : List Char) (token : Token)
    (word : Text.isWord first = true) (found : scanName first rest = .found token lexeme after) :
    token.Sound := by
  have words := dotted_parts_words rest
  unfold scanName at found
  split at found
  · cases found
    exact ⟨first, (dottedParts rest).1, by simp, word, words⟩
  · cases found
  · cases found
    exact of_path_sound first _ word words

theorem scan_number_sound (whole rest lexeme after : List Char) (token : Token)
    (digits : Text.isDigits whole = true) (found : scanNumber whole rest = .found token lexeme after) :
    token.Sound := by
  unfold scanNumber at found
  split at found
  · split at found
    · rename_i d beyond digit
      cases found
      exact ⟨whole, _, by simp, digits, is_digits_take d beyond digit⟩
    · cases found
  · cases found
  · cases found
    simpa [Sound] using digits

theorem scan_symbol_sound (chars lexeme after : List Char) (token : Token)
    (found : scanSymbol chars = .found token lexeme after) : token.Sound := by
  unfold scanSymbol at found
  split at found
  · cases found
    trivial
  · split at found
    · cases found
    · split at found <;> cases found

theorem scan_sound (chars lexeme after : List Char) (token : Token)
    (found : scan chars = .found token lexeme after) : token.Sound := by
  unfold scan at found
  split at found
  · cases found
  · rename_i c rest
    split at found
    · rename_i start
      exact scan_name_sound _ _ _ _ _ (is_word_take c rest start) found
    · split at found
      · rename_i digit
        exact scan_number_sound _ _ _ _ _ (is_digits_take c rest digit) found
      · split at found
        · split at found
          · cases found
            trivial
          · cases found
        · split at found
          · split at found
            · split at found
              · rename_i d beyond start
                cases found
                simpa [Sound] using is_word_take d beyond start
              · cases found
            · cases found
          · exact scan_symbol_sound _ _ _ _ found

theorem word_parts (chars : List Char) (word : Text.isWord chars = true) : ∀ c ∈ chars, Text.isNamePart c = true := by
  cases chars with
  | nil => cases word
  | cons c rest =>
    rw [Text.isWord, Bool.and_eq_true, List.all_eq_true] at word
    intro d member
    rcases List.mem_cons.1 member with rfl | member
    · exact Text.name_start_part word.1
    · exact word.2 d member

theorem word_quiet (chars : List Char) (word : Text.isWord chars = true) : '\'' ∉ chars := fun quote =>
  absurd (word_parts chars word _ quote) (by decide)

theorem digits_quiet (chars : List Char) (digits : Text.isDigits chars = true) : '\'' ∉ chars := by
  intro quote
  rw [Text.isDigits, Bool.and_eq_true, List.all_eq_true] at digits
  have digit := digits.2 _ quote
  revert digit
  decide

theorem path_quiet (parts : List (List Char)) (words : ∀ part ∈ parts, Text.isWord part = true) :
    '\'' ∉ pathChars parts := by
  induction parts with
  | nil => simp [pathChars]
  | cons part rest ih =>
    simp only [pathChars, List.cons_append, List.mem_cons, List.mem_append, not_or]
    refine ⟨by decide, word_quiet part (words part (.head _)), ?_⟩
    exact ih fun other member => words other (.tail _ member)

theorem table_wildcard_quiet (table : String) (sound : (tableWildcard table).Sound) : '\'' ∉ table.toList := by
  obtain ⟨first, parts, chars, firstWord, words⟩ := sound
  rw [chars, List.mem_append, not_or]
  exact ⟨word_quiet first firstWord, path_quiet parts words⟩

theorem decimal_quiet (digits : String) (sound : (decimal digits).Sound) : '\'' ∉ digits.toList := by
  obtain ⟨whole, fraction, chars, wholeDigits, fractionDigits⟩ := sound
  rw [chars, List.mem_append, List.mem_cons, not_or, not_or]
  exact ⟨digits_quiet whole wholeDigits, by decide, digits_quiet fraction fractionDigits⟩

end Token

theorem read_sound (offset : Nat) (chars : List Char) (lexemes : List Lexeme)
    (accepted : Lexeme.read offset chars = .ok lexemes) : ∀ lexeme ∈ lexemes, lexeme.token.Sound := by
  fun_induction Lexeme.read offset chars generalizing lexemes with
  | case1 offset chars ended =>
    cases accepted
    simp
  | case2 offset chars skipped start c rest body taken beyond stuck => cases accepted
  | case3 offset chars skipped start c rest body token lexeme after found stop ih =>
    cases inner : Lexeme.read stop after with
    | error fault =>
      rw [inner] at accepted
      cases accepted
    | ok others =>
      rw [inner] at accepted
      cases accepted
      intro member present
      rcases List.mem_cons.1 present with rfl | present
      · exact Token.scan_sound _ _ _ _ found
      · exact ih others inner member present

theorem tokenize_sound (source : String) (lexemes : List Lexeme)
    (accepted : tokenize source = .ok lexemes) : ∀ lexeme ∈ lexemes, lexeme.token.Sound :=
  read_sound 0 source.toList lexemes accepted

end PipeSql
