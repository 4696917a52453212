import PipeSql.Proofs.Token.Sound

set_option autoImplicit false

namespace PipeSql

-- One round of reading, without what its termination asks for.
theorem Lexeme.read_round (offset : Nat) (chars : List Char) :
    read offset chars =
      match (Token.gap false chars).2 with
      | [] => .ok []
      | c :: rest =>
        match Token.scan (c :: rest) with
        | .stuck accepted beyond =>
          .error ⟨offset + Text.width (Token.gap false chars).1 + Text.width accepted, beyond.head?⟩
        | .found token lexeme after =>
          (read (offset + Text.width (Token.gap false chars).1 + Text.width lexeme) after).map
            (⟨token, ⟨offset + Text.width (Token.gap false chars).1,
              offset + Text.width (Token.gap false chars).1 + Text.width lexeme⟩⟩ :: ·) := by
  rw [read]
  split
  · rename_i ended
    rw [ended]
  · rename_i c rest body
    rw [body]
    split
    · rename_i stuck
      simp only [stuck]
    · rename_i found
      simp only [found]

namespace Token

inductive Lexed : List Char → List Token → Prop where
  | nil : Lexed [] []
  | space (rest : List Char) (tokens : List Token) (behind : Lexed rest tokens) : Lexed (' ' :: rest) tokens
  | token (token : Token) (lexeme rest : List Char) (tokens : List Token)
      (visible : gap false (lexeme ++ rest) = ([], lexeme ++ rest))
      (found : scan (lexeme ++ rest) = .found token lexeme rest) (behind : Lexed rest tokens) :
      Lexed (lexeme ++ rest) (token :: tokens)

theorem lexed_read {chars : List Char} {tokens : List Token} (lexed : Lexed chars tokens) (offset : Nat) :
    ∃ lexemes, Lexeme.read offset chars = .ok lexemes ∧ lexemes.map Lexeme.token = tokens := by
  induction lexed generalizing offset with
  | nil => exact ⟨[], by rw [Lexeme.read_round]; rfl, rfl⟩
  | space rest tokens behind ih =>
    -- A space moves the start of the text by one.
    obtain ⟨lexemes, accepted, same⟩ := ih (offset + 1)
    refine ⟨lexemes, ?_, same⟩
    have skipped : gap false (' ' :: rest) = (' ' :: (gap false rest).1, (gap false rest).2) := by
      rw [gap]
      rfl
    have width : offset + Text.width (' ' :: (gap false rest).1) = offset + 1 + Text.width (gap false rest).1 := by
      rw [Text.width, ← Nat.add_assoc]
      rfl
    rw [Lexeme.read_round] at accepted ⊢
    rw [skipped, width]
    exact accepted
  | token token lexeme rest tokens visible found behind ih =>
    obtain ⟨lexemes, accepted, same⟩ := ih (offset + Text.width lexeme)
    obtain ⟨-, filled⟩ := scan_append found
    obtain ⟨c, others, front⟩ : ∃ c others, lexeme ++ rest = c :: others := by
      cases lexeme with
      | nil => exact absurd rfl filled
      | cons c others => exact ⟨c, others ++ rest, rfl⟩
    refine ⟨⟨token, ⟨offset, offset + Text.width lexeme⟩⟩ :: lexemes, ?_, by rw [List.map_cons, same]⟩
    rw [Lexeme.read_round, visible]
    rw [front] at found ⊢
    simp only [found]
    change (Lexeme.read (offset + Text.width lexeme) rest).map _ = _
    rw [accepted]
    rfl

-- What can stand behind every lexeme without making it longer.
def isDelimiter (c : Char) : Bool :=
  c == ' ' || c == ',' || c == ')' || c == '('

def Delimited (chars : List Char) : Prop :=
  ∀ c, chars.head? = some c → isDelimiter c = true

theorem delimiter_ends {c : Char} (delimiter : isDelimiter c = true) :
    Text.isNamePart c = false ∧ c.isDigit = false ∧ c ≠ '.' ∧ c ≠ '\'' := by
  simp only [isDelimiter, Bool.or_eq_true, beq_iff_eq] at delimiter
  rcases delimiter with ((rfl | rfl) | rfl) | rfl <;> decide

theorem take_while_delimited {accepted : Char → Bool} {chars rest : List Char}
    (inside : ∀ c ∈ chars, accepted c = true) (outside : ∀ c, rest.head? = some c → accepted c = false) :
    (chars ++ rest).takeWhile accepted = chars ∧ (chars ++ rest).dropWhile accepted = rest := by
  have none : rest.takeWhile accepted = [] ∧ rest.dropWhile accepted = rest := by
    cases rest with
    | nil => exact ⟨rfl, rfl⟩
    | cons c rest => simp [outside c rfl]
  rw [List.takeWhile_append_of_pos inside, List.dropWhile_append_of_pos inside, none.1, none.2, List.append_nil]
  exact ⟨rfl, rfl⟩

theorem gap_visible {c : Char} (visible : Text.isBlank c = false) (dash : c ≠ '-') (rest : List Char) :
    gap false (c :: rest) = ([], c :: rest) := by
  simp [gap, visible, dash]

theorem alpha_iff (c : Char) :
    c.isAlpha = true ↔ (65 ≤ c.toNat ∧ c.toNat ≤ 90) ∨ 97 ≤ c.toNat ∧ c.toNat ≤ 122 := by
  change (decide (c.val ≥ 65 ∧ c.val ≤ 90) || (decide (c.val ≥ 97) && decide (c.val ≤ 122))) = true ↔ _
  simp only [Bool.or_eq_true, Bool.and_eq_true, decide_eq_true_eq, ge_iff_le, UInt32.le_iff_toNat_le,
    UInt32.reduceToNat]
  rfl

theorem digit_iff (c : Char) : c.isDigit = true ↔ 48 ≤ c.toNat ∧ c.toNat ≤ 57 := by
  change (decide (c.val ≥ 48) && decide (c.val ≤ 57)) = true ↔ _
  simp only [Bool.and_eq_true, decide_eq_true_eq, ge_iff_le, UInt32.le_iff_toNat_le, UInt32.reduceToNat]
  rfl

theorem name_part_visible {c : Char} (part : Text.isNamePart c = true) : Text.isBlank c = false ∧ c ≠ '-' := by
  constructor
  · simp only [Text.isNamePart, Char.isAlphanum, Bool.or_eq_true, alpha_iff, digit_iff, beq_iff_eq] at part
    rcases part with part | rfl
    · have bounds : 48 ≤ c.toNat ∧ c.toNat ≤ 122 := by omega
      simp only [Text.isBlank, Bool.or_eq_false_iff, Bool.and_eq_false_iff, decide_eq_false_iff_not, beq_eq_false_iff_ne]
      omega
    · decide
  · rintro rfl
    exact absurd part (by decide)

theorem word_start {chars : List Char} (word : Text.isWord chars = true) :
    ∃ c rest, chars = c :: rest ∧ Text.isNameStart c = true ∧ ∀ d ∈ rest, Text.isNamePart d = true := by
  cases chars with
  | nil => cases word
  | cons c rest =>
    rw [Text.isWord, Bool.and_eq_true, List.all_eq_true] at word
    exact ⟨c, rest, rfl, word.1, word.2⟩

theorem path_head {parts : List (List Char)} {rest : List Char}
    (ended : ∀ c, rest.head? = some c → Text.isNamePart c = false) :
    ∀ c, (pathChars parts ++ rest).head? = some c → Text.isNamePart c = false := by
  cases parts with
  | nil => exact ended
  | cons part parts =>
    rintro _ ⟨⟩
    decide

theorem dotted_parts_path {parts : List (List Char)} {rest : List Char}
    (words : ∀ part ∈ parts, Text.isWord part = true) (ended : ∀ c, rest.head? = some c → Text.isNamePart c = false)
    (last : dottedParts rest = ([], rest)) : dottedParts (pathChars parts ++ rest) = (parts, rest) := by
  induction parts with
  | nil => exact last
  | cons part parts ih =>
    obtain ⟨c, others, rfl, start, inside⟩ := word_start (words part (.head _))
    have shorter := ih fun other member => words other (.tail _ member)
    obtain ⟨taken, dropped⟩ := take_while_delimited inside (@path_head parts _ ended)
    simp only [pathChars, List.cons_append, List.append_assoc]
    rw [dottedParts, if_pos start, taken, dropped, shorter]

theorem scan_word {first rest : List Char} (word : Text.isWord first = true)
    (ended : ∀ c, rest.head? = some c → Text.isNamePart c = false) : scan (first ++ rest) = scanName first rest := by
  obtain ⟨c, others, rfl, start, inside⟩ := word_start word
  obtain ⟨taken, dropped⟩ := take_while_delimited inside ended
  rw [List.cons_append, scan.eq_def]
  dsimp only
  rw [if_pos start, taken, dropped]

theorem word_visible {first : List Char} (word : Text.isWord first = true) (rest : List Char) :
    gap false (first ++ rest) = ([], first ++ rest) := by
  obtain ⟨c, others, rfl, -, -⟩ := word_start word
  obtain ⟨visible, dash⟩ := name_part_visible (word_parts _ word c (.head _))
  exact gap_visible visible dash (others ++ rest)

theorem delimited_dot {rest : List Char} (delimited : Delimited rest) (more : List Char) : rest ≠ '.' :: more := by
  rintro rfl
  exact absurd (delimited _ rfl) (by decide)

theorem delimited_part {rest : List Char} (delimited : Delimited rest) :
    ∀ c, rest.head? = some c → Text.isNamePart c = false :=
  fun c head => (delimiter_ends (delimited c head)).1

theorem scan_path_ended {first : List Char} {parts : List (List Char)} {rest : List Char}
    (word : Text.isWord first = true) (words : ∀ part ∈ parts, Text.isWord part = true)
    (ended : ∀ c, rest.head? = some c → Text.isNamePart c = false) (dotless : ∀ more, rest ≠ '.' :: more) :
    scan (first ++ pathChars parts ++ rest) = .found (ofPath first parts) (first ++ pathChars parts) rest := by
  have last : dottedParts rest = ([], rest) := by
    rw [dottedParts]
    exact fun c more => dotless (c :: more)
  rw [List.append_assoc, scan_word word (path_head ended), scanName, dotted_parts_path words ended last]
  dsimp only
  split
  · exact absurd rfl (dotless _)
  · exact absurd rfl (dotless _)
  · rfl

theorem scan_path {first : List Char} {parts : List (List Char)} {rest : List Char} (word : Text.isWord first = true)
    (words : ∀ part ∈ parts, Text.isWord part = true) (delimited : Delimited rest) :
    scan (first ++ pathChars parts ++ rest) = .found (ofPath first parts) (first ++ pathChars parts) rest :=
  scan_path_ended word words (delimited_part delimited) (delimited_dot delimited)

theorem lexed_path {first : List Char} {parts : List (List Char)} {rest : List Char} {tokens : List Token}
    (word : Text.isWord first = true) (words : ∀ part ∈ parts, Text.isWord part = true) (delimited : Delimited rest)
    (behind : Lexed rest tokens) : Lexed (first ++ pathChars parts ++ rest) (ofPath first parts :: tokens) := by
  refine .token _ _ _ _ ?_ (scan_path word words delimited) behind
  rw [List.append_assoc]
  exact word_visible word _

theorem scan_table {first : List Char} {parts : List (List Char)} (word : Text.isWord first = true)
    (words : ∀ part ∈ parts, Text.isWord part = true) (rest : List Char) :
    scan (first ++ pathChars parts ++ ['.', '*'] ++ rest) =
      .found (.tableWildcard (String.ofList (first ++ pathChars parts))) (first ++ pathChars parts ++ ['.', '*']) rest := by
  have ended : ∀ c, ('.' :: '*' :: rest).head? = some c → Text.isNamePart c = false := by
    rintro _ ⟨⟩
    decide
  have last : dottedParts ('.' :: '*' :: rest) = ([], '.' :: '*' :: rest) := by
    rw [dottedParts]
    rfl
  simp only [List.append_assoc, List.cons_append, List.nil_append]
  rw [scan_word word (path_head ended), scanName, dotted_parts_path words ended last]
  simp

theorem lexed_table {first : List Char} {parts : List (List Char)} {rest : List Char} {tokens : List Token}
    (word : Text.isWord first = true) (words : ∀ part ∈ parts, Text.isWord part = true) (behind : Lexed rest tokens) :
    Lexed (first ++ pathChars parts ++ ['.', '*'] ++ rest)
      (.tableWildcard (String.ofList (first ++ pathChars parts)) :: tokens) := by
  refine .token _ _ _ _ ?_ (scan_table word words rest) behind
  simp only [List.append_assoc]
  exact word_visible word _

theorem digits_start {digits : List Char} (number : Text.isDigits digits = true) :
    ∃ d rest, digits = d :: rest ∧ d.isDigit = true ∧ ∀ c ∈ rest, c.isDigit = true := by
  cases digits with
  | nil => cases number
  | cons d rest =>
    simp only [Text.isDigits, List.isEmpty_cons, Bool.not_false, Bool.true_and, List.all_cons, Bool.and_eq_true,
      List.all_eq_true] at number
    exact ⟨d, rest, rfl, number⟩

theorem digit_not_start {d : Char} (digit : d.isDigit = true) : Text.isNameStart d = false := by
  have underscore : d ≠ '_' := by
    rintro rfl
    exact absurd digit (by decide)
  rw [digit_iff] at digit
  rw [Text.isNameStart, Bool.or_eq_false_iff, Bool.eq_false_iff, ne_eq, alpha_iff, beq_eq_false_iff_ne]
  exact ⟨by omega, underscore⟩

theorem digit_part {d : Char} (digit : d.isDigit = true) : Text.isNamePart d = true := by
  simp [Text.isNamePart, Char.isAlphanum, digit]

theorem scan_digits {whole rest : List Char} (number : Text.isDigits whole = true)
    (ended : ∀ c, rest.head? = some c → c.isDigit = false) : scan (whole ++ rest) = scanNumber whole rest := by
  obtain ⟨d, others, rfl, digit, inside⟩ := digits_start number
  obtain ⟨taken, dropped⟩ := take_while_delimited inside ended
  rw [List.cons_append, scan.eq_def]
  dsimp only
  rw [if_neg (by simp [digit_not_start digit]), if_pos digit, taken, dropped]

theorem digits_visible {whole : List Char} (number : Text.isDigits whole = true) (rest : List Char) :
    gap false (whole ++ rest) = ([], whole ++ rest) := by
  obtain ⟨d, others, rfl, digit, -⟩ := digits_start number
  obtain ⟨visible, dash⟩ := name_part_visible (digit_part digit)
  exact gap_visible visible dash (others ++ rest)

theorem delimited_digit {rest : List Char} (delimited : Delimited rest) :
    ∀ c, rest.head? = some c → c.isDigit = false :=
  fun c head => (delimiter_ends (delimited c head)).2.1

theorem scan_whole_ended {digits rest : List Char} (number : Text.isDigits digits = true)
    (ended : ∀ c, rest.head? = some c → c.isDigit = false) (dotless : ∀ more, rest ≠ '.' :: more) :
    scan (digits ++ rest) = .found (.int (String.ofList digits)) digits rest := by
  rw [scan_digits number ended, scanNumber.eq_def]
  split
  · exact absurd rfl (dotless _)
  · exact absurd rfl (dotless _)
  · rfl

theorem scan_whole {digits rest : List Char} (number : Text.isDigits digits = true) (delimited : Delimited rest) :
    scan (digits ++ rest) = .found (.int (String.ofList digits)) digits rest :=
  scan_whole_ended number (delimited_digit delimited) (delimited_dot delimited)

theorem lexed_digits {digits rest : List Char} {tokens : List Token} (number : Text.isDigits digits = true)
    (delimited : Delimited rest) (behind : Lexed rest tokens) :
    Lexed (digits ++ rest) (.int (String.ofList digits) :: tokens) :=
  .token _ _ _ _ (digits_visible number rest) (scan_whole number delimited) behind

theorem scan_decimal_ended {whole fraction rest : List Char} (wholeDigits : Text.isDigits whole = true)
    (fractionDigits : Text.isDigits fraction = true) (ended : ∀ c, rest.head? = some c → c.isDigit = false) :
    scan (whole ++ '.' :: fraction ++ rest) =
      .found (.decimal (String.ofList (whole ++ '.' :: fraction))) (whole ++ '.' :: fraction) rest := by
  have point : ∀ more c, ('.' :: more).head? = some c → c.isDigit = false := by
    rintro more _ ⟨⟩
    decide
  obtain ⟨d, others, rfl, digit, inside⟩ := digits_start fractionDigits
  obtain ⟨taken, dropped⟩ := take_while_delimited inside ended
  rw [List.append_assoc, List.cons_append, scan_digits wholeDigits (point _), List.cons_append, scanNumber,
    if_pos digit, taken, dropped]

theorem scan_decimal {whole fraction rest : List Char} (wholeDigits : Text.isDigits whole = true)
    (fractionDigits : Text.isDigits fraction = true) (delimited : Delimited rest) :
    scan (whole ++ '.' :: fraction ++ rest) =
      .found (.decimal (String.ofList (whole ++ '.' :: fraction))) (whole ++ '.' :: fraction) rest :=
  scan_decimal_ended wholeDigits fractionDigits (delimited_digit delimited)

theorem lexed_decimal {whole fraction rest : List Char} {tokens : List Token} (wholeDigits : Text.isDigits whole = true)
    (fractionDigits : Text.isDigits fraction = true) (delimited : Delimited rest) (behind : Lexed rest tokens) :
    Lexed (whole ++ '.' :: fraction ++ rest) (.decimal (String.ofList (whole ++ '.' :: fraction)) :: tokens) := by
  refine .token _ _ _ _ ?_ (scan_decimal wholeDigits fractionDigits delimited) behind
  rw [List.append_assoc]
  exact digits_visible wholeDigits _

theorem literal_quoted (value : List Char) {rest : List Char} (ended : rest.head? ≠ some '\'') :
    literal? (Text.doubleQuotes value ++ '\'' :: rest) = some (value, Text.doubleQuotes value ++ ['\''], rest) := by
  induction value with
  | nil =>
    cases rest with
    | nil => rfl
    | cons c rest =>
      have other : c ≠ '\'' := by simpa using ended
      simp [Text.doubleQuotes, literal?, other]
  | cons c value ih =>
    by_cases quote : c = '\''
    · subst quote
      simp [Text.doubleQuotes, literal?, ih]
    · simp [Text.doubleQuotes, literal?, quote, ih]

theorem scan_quote {chars value raw after : List Char} (closed : literal? chars = some (value, raw, after)) :
    scan ('\'' :: chars) = .found (.str (String.ofList value)) ('\'' :: raw) after := by
  rw [scan.eq_def]
  dsimp only
  rw [if_neg (by decide), if_neg (by decide), if_pos rfl, closed]

theorem lexed_literal (value : List Char) {rest : List Char} {tokens : List Token} (delimited : Delimited rest)
    (behind : Lexed rest tokens) :
    Lexed ('\'' :: (Text.doubleQuotes value ++ ['\'']) ++ rest) (.str (String.ofList value) :: tokens) := by
  have ended : rest.head? ≠ some '\'' := fun head => (delimiter_ends (delimited _ head)).2.2.2 rfl
  refine .token _ _ _ _ (gap_visible (by decide) (by decide) _) ?_ behind
  rw [List.cons_append, List.append_assoc, List.cons_append, List.nil_append]
  exact scan_quote (literal_quoted value ended)

theorem scan_param_ended {name rest : List Char} (word : Text.isWord name = true)
    (ended : ∀ c, rest.head? = some c → Text.isNamePart c = false) :
    scan ('@' :: name ++ rest) = .found (.param (String.ofList name)) ('@' :: name) rest := by
  obtain ⟨c, others, rfl, start, inside⟩ := word_start word
  obtain ⟨taken, dropped⟩ := take_while_delimited inside ended
  rw [List.cons_append, List.cons_append, scan.eq_def]
  dsimp only
  rw [if_neg (by decide), if_neg (by decide), if_neg (by decide), if_pos rfl, if_pos start, taken, dropped]

theorem scan_param {name rest : List Char} (word : Text.isWord name = true) (delimited : Delimited rest) :
    scan ('@' :: name ++ rest) = .found (.param (String.ofList name)) ('@' :: name) rest :=
  scan_param_ended word (delimited_part delimited)

theorem lexed_param {name rest : List Char} {tokens : List Token} (word : Text.isWord name = true)
    (delimited : Delimited rest) (behind : Lexed rest tokens) :
    Lexed ('@' :: name ++ rest) (.param (String.ofList name) :: tokens) :=
  .token _ _ _ _ (gap_visible (by decide) (by decide) _) (scan_param word delimited) behind

theorem lexed_minus {rest : List Char} {tokens : List Token} (behind : Lexed rest tokens)
    (single : tokens.head? ≠ some (.symbol .minus)) : Lexed ('-' :: rest) (.symbol .minus :: tokens) := by
  -- Two dashes would begin a comment, but a dash behind this one would be a token of its own.
  have dash : rest.head? ≠ some '-' := by
    intro head
    cases behind with
    | nil => cases head
    | space rest tokens behind => cases head
    | token token lexeme rest tokens visible found behind =>
      obtain ⟨others, front⟩ : ∃ others, lexeme ++ rest = '-' :: others := by
        cases text : lexeme ++ rest with
        | nil =>
          rw [text] at head
          cases head
        | cons c others =>
          rw [text] at head
          cases head
          exact ⟨others, rfl⟩
      rw [front] at found
      cases found
      exact single rfl
  refine .token _ ['-'] rest tokens ?_ rfl behind
  rw [List.cons_append, List.nil_append, gap, if_neg (by decide), if_neg (by decide), if_neg fun both => dash both.2]

-- The text is made of the lexemes of the tokens, whatever delimited text follows.
def Prints (text : String) (tokens : List Token) : Prop :=
  ∀ rest more, Delimited rest → Lexed rest more → Lexed (text.toList ++ rest) (tokens ++ more)

theorem prints_read {text : String} {tokens : List Token} (prints : Prints text tokens) :
    ∃ lexemes, tokenize text = .ok lexemes ∧ lexemes.map Lexeme.token = tokens := by
  have lexed := prints [] [] nofun .nil
  rw [List.append_nil, List.append_nil] at lexed
  exact lexed_read lexed 0

def Follows (text : String) : Prop :=
  ∀ rest, Delimited rest → Delimited (text.toList ++ rest)

theorem follows_empty : Follows "" := fun _ delimited => delimited

theorem follows_delimiter {first : String} (delimiter : first.toList.head?.any isDelimiter = true) (text : String) :
    Follows (first ++ text) := by
  intro rest _ c head
  rw [String.toList_append] at head
  cases chars : first.toList with
  | nil =>
    rw [chars] at delimiter
    cases delimiter
  | cons d others =>
    rw [chars] at delimiter head
    cases head
    exact delimiter

theorem prints_empty : Prints "" [] := fun _ _ _ behind => behind

theorem prints_append {first second : String} {tokens more : List Token} (front : Prints first tokens)
    (follows : Follows second) (back : Prints second more) : Prints (first ++ second) (tokens ++ more) := by
  intro rest others delimited behind
  rw [String.toList_append, List.append_assoc, List.append_assoc]
  exact front _ _ (follows rest delimited) (back rest others delimited behind)

theorem prints_space {text : String} {tokens : List Token} (prints : Prints text tokens) : Prints (" " ++ text) tokens := by
  intro rest more delimited behind
  rw [String.toList_append]
  exact .space _ _ (prints rest more delimited behind)

theorem prints_opening {text : String} {tokens : List Token} (prints : Prints text tokens) :
    Prints ("(" ++ text) (.symbol .leftParen :: tokens) := by
  intro rest more delimited behind
  rw [String.toList_append]
  exact .token _ ['('] _ _ rfl rfl (prints rest more delimited behind)

theorem prints_minus {text : String} {tokens : List Token} (prints : Prints text tokens) (filled : tokens ≠ [])
    (single : tokens.head? ≠ some (.symbol .minus)) : Prints ("-" ++ text) (.symbol .minus :: tokens) := by
  intro rest more delimited behind
  rw [String.toList_append]
  refine lexed_minus (prints rest more delimited behind) ?_
  cases tokens with
  | nil => exact absurd rfl filled
  | cons token tokens => exact single

theorem prints_keyword (word : Keyword) : Prints word.spelling [.keyword word] := by
  have isWord : Text.isWord word.spelling.toList = true := by cases word <;> decide
  have isKeyword : ofPath word.spelling.toList [] = .keyword word := by cases word <;> rfl
  intro rest more delimited behind
  have lexed := @lexed_path _ [] _ _ isWord nofun delimited behind
  rw [isKeyword, pathChars, List.append_nil] at lexed
  exact lexed

theorem prints_ident {name : String} (sound : (ident name).Sound) : Prints name [.ident name] := by
  intro rest more delimited behind
  have lexed := @lexed_path _ [] _ _ sound.1 nofun delimited behind
  have path : ofPath name.toList [] = .ident name := by
    simp only [ofPath, String.ofList_toList, sound.2]
  rw [path, pathChars, List.append_nil] at lexed
  exact lexed

theorem joined_path (first : String) (parts : List String) :
    (Text.joinWith "." (first :: parts)).toList = first.toList ++ pathChars (parts.map String.toList) := by
  induction parts generalizing first with
  | nil => simp [Text.joinWith, pathChars]
  | cons part parts ih => simp [Text.joinWith, pathChars, ih]

theorem prints_qualified {parts : List String} (sound : (qualified parts).Sound) :
    Prints (Text.joinWith "." parts) [.qualified parts] := by
  obtain ⟨several, words⟩ := sound
  match parts, several with
  | first :: second :: others, _ =>
    intro rest more delimited behind
    have further : ∀ part ∈ (second :: others).map String.toList, Text.isWord part = true := by
      intro part member
      obtain ⟨word, listed, rfl⟩ := List.mem_map.1 member
      exact words word (.tail _ listed)
    have lexed := lexed_path (words first (.head _)) further delimited behind
    rw [← joined_path] at lexed
    have path : ofPath first.toList ((second :: others).map String.toList) = .qualified (first :: second :: others) := by
      simp [ofPath, Function.comp_def]
    rw [path] at lexed
    exact lexed

theorem prints_table {table : String} (sound : (tableWildcard table).Sound) :
    Prints (table ++ ".*") [.tableWildcard table] := by
  obtain ⟨first, parts, chars, word, words⟩ := sound
  intro rest more delimited behind
  have lexed := lexed_table word words behind
  rw [← chars, String.ofList_toList] at lexed
  rw [String.toList_append]
  exact lexed

theorem prints_param {name : String} (sound : (param name).Sound) : Prints ("@" ++ name) [.param name] := by
  intro rest more delimited behind
  have lexed := lexed_param sound delimited behind
  rw [String.ofList_toList] at lexed
  rw [String.toList_append]
  exact lexed

theorem prints_literal (value : String) : Prints (Text.sqlLiteral value) [.str value] := by
  intro rest more delimited behind
  have lexed := lexed_literal value.toList delimited behind
  rw [String.ofList_toList] at lexed
  have chars : (Text.sqlLiteral value).toList = '\'' :: (Text.doubleQuotes value.toList ++ ['\'']) := by
    simp [Text.sqlLiteral, Text.escapeLiteral]
  rw [chars]
  exact lexed

theorem prints_int {digits : String} (sound : (int digits).Sound) : Prints digits [.int digits] := by
  intro rest more delimited behind
  have lexed := lexed_digits sound delimited behind
  rw [String.ofList_toList] at lexed
  exact lexed

theorem prints_decimal {digits : String} (sound : (decimal digits).Sound) : Prints digits [.decimal digits] := by
  obtain ⟨whole, fraction, chars, wholeDigits, fractionDigits⟩ := sound
  intro rest more delimited behind
  have lexed := lexed_decimal wholeDigits fractionDigits delimited behind
  rw [← chars, String.ofList_toList] at lexed
  exact lexed

end Token

end PipeSql
