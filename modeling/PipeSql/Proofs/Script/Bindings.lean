import PipeSql.Proofs.Script.Blanked
import PipeSql.Proofs.Script.Occurrences
import PipeSql.Proofs.Script.Printed

set_option autoImplicit false

namespace PipeSql

namespace Token

-- Tokens in which a statement can end.
def closes : Token → Bool
  | .symbol mark => mark == .rightParen || mark == .star
  | _ => true

def isNumber : Token → Bool
  | .int _ | .decimal _ => true
  | _ => false

def beginsName : Token → Bool
  | .keyword _ | .ident _ | .qualified _ | .tableWildcard _ => true
  | _ => false

def Closed (tokens : List Token) : Prop :=
  ∃ front last, tokens = front ++ [last] ∧ last.closes = true

theorem closed_single {last : Token} (closes : last.closes = true) : Closed [last] :=
  ⟨[], last, rfl, closes⟩

theorem closed_append (first : List Token) {second : List Token} (closed : Closed second) :
    Closed (first ++ second) := by
  obtain ⟨front, last, rfl, closes⟩ := closed
  exact ⟨first ++ front, last, by simp, closes⟩

theorem closed_cons (first : Token) {second : List Token} (closed : Closed second) : Closed (first :: second) :=
  closed_append [first] closed

theorem closed_enclosed (tokens : List Token) : Closed (enclosed tokens) :=
  closed_cons _ (closed_append _ (closed_single rfl))

end Token

open Token

theorem Term.prints_closed (term : Term) {tokens : List Token} (printed : term.Printed tokens) : Closed tokens := by
  induction term using parts_induction generalizing tokens with
  | step term ih =>
    cases printed with
    | ident | qualified | wildcard | tableWildcard | param => exact closed_single rfl
    | literal span value => cases value <;> exact closed_single rfl
    | call => exact closed_cons _ (closed_enclosed _)
    | windowed => exact closed_append _ (closed_cons _ (closed_enclosed _))
    | lambda span params inner =>
      exact closed_cons _ (closed_append _ (closed_cons _ (ih _ (.head _) inner)))
    | cases => exact closed_cons _ (closed_append _ (closed_single rfl))
    | binary span written first second => exact closed_append _ (closed_cons _ (ih _ (.tail _ (.head _)) second))
    | unary span op inner => exact closed_cons _ (ih _ (.head _) inner)
    | isNull => exact closed_append _ (closed_cons _ (closed_append _ (closed_single rfl)))
    | inList => exact closed_append _ (closed_append _ (closed_cons _ (closed_enclosed _)))
    | like span negated first second =>
      exact closed_append _ (closed_append _ (closed_cons _ (ih _ (.tail _ (.head _)) second)))
    | «exists» => exact closed_cons _ (closed_enclosed _)
    | paren => exact closed_enclosed _
    | pipe => exact closed_enclosed _
    | aliased => exact closed_append _ (closed_cons _ (closed_single rfl))
    | ordered => exact closed_append _ (closed_single rfl)
    | named span inner => exact closed_cons _ (closed_cons _ (ih _ (.head _) inner))

theorem Pipe.prints_closed {pipe : Pipe} {tokens : List Token} (printed : pipe.Printed tokens) : Closed tokens := by
  obtain ⟨front, pieces, first, each, rfl⟩ := printed
  have source := Term.prints_closed _ first
  clear first
  unfold Token.piped
  generalize pipe.stages = stages at each
  induction each generalizing front with
  | nil => simpa using source
  | cons stage others ih =>
    have more := ih (front ++ .symbol .pipe :: _) (closed_append _ (closed_cons _ (Term.prints_closed _ stage)))
    simpa using more

-- The tokens of a statement with their places.
def ScriptStatement.Taken (statement : ScriptStatement) (taken : List Lexeme) : Prop :=
  match statement with
  | .bind name nameSpan value => ∃ keyword mark rest, taken =
      ⟨.keyword .let, keyword⟩ :: ⟨.ident name, nameSpan⟩ :: ⟨.symbol .eq, mark⟩ :: rest ∧
      value.Printed (rest.map Lexeme.token)
  | .query value => value.Printed (taken.map Lexeme.token)

theorem ScriptStatement.taken_closed {statement : ScriptStatement} {taken : List Lexeme}
    (read : statement.Taken taken) : Closed (taken.map Lexeme.token) := by
  cases statement with
  | bind name nameSpan value =>
    obtain ⟨keyword, mark, rest, rfl, printed⟩ := read
    exact closed_append [_, _, _] (Pipe.prints_closed printed)
  | query value => exact Pipe.prints_closed read

namespace Grammar

open Recognizer

theorem takes_statement {term : Recognizer Term} (given : Writes term Term.Printed) :
    Takes (statement term) ScriptStatement.Taken := by
  apply takes_or_else
  · apply takes_bind (takes_token (.keyword .let))
    rintro - _ ⟨⟨_, keyword⟩, rfl, rfl⟩
    apply takes_bind (takes_labelled takes_identifier)
    rintro ⟨name, nameSpan⟩ _ rfl
    apply takes_bind (takes_labelled (takes_token (.symbol .eq)))
    rintro - _ ⟨⟨_, mark⟩, rfl, rfl⟩
    apply takes_bind (writes_pipe given)
    intro value rest printed
    apply takes_pure
    exact ⟨keyword, mark, rest, by simp, printed⟩
  · have query : Writes (ScriptStatement.query <$> pipe term) fun statement tokens =>
        ∃ value, statement = .query value ∧ value.Printed tokens :=
      writes_map (writes_pipe given) fun value _ printed => ⟨value, rfl, printed⟩
    apply takes_mono query
    rintro _ taken ⟨value, rfl, printed⟩
    exact printed

end Grammar

-- The tokens of a statement stand behind tokens of statements.
theorem Script.statement_taken {lexemes : List Lexeme} {width : Nat} {script : Script} {statement : ScriptStatement}
    (parsed : parse lexemes width = .ok script) (member : statement ∈ script.statements) :
    ∃ front taken back, lexemes = front ++ (taken ++ back) ∧ statement.Taken taken ∧
      (front = [] ∨ Closed (front.map Lexeme.token)) := by
  obtain ⟨pieces, each, rfl⟩ := parse_taken (fun depth => Grammar.takes_statement (Grammar.writes_term depth)) parsed
  clear parsed
  generalize script.statements = statements at member each
  induction each with
  | nil => cases member
  | cons first others ih =>
    rename_i read piece statements pieces
    rcases List.mem_cons.1 member with rfl | member
    · exact ⟨[], piece, pieces.flatten, rfl, first, .inl rfl⟩
    · obtain ⟨front, taken, back, same, holds, closed⟩ := ih member
      refine ⟨piece ++ front, taken, back, ?_, holds, .inr ?_⟩
      · rw [List.flatten_cons, same, List.append_assoc]
      · rcases closed with rfl | closed
        · rw [List.append_nil]
          exact ScriptStatement.taken_closed first
        · rw [List.map_append]
          exact closed_append _ closed

namespace Token

theorem word_char_ends {c : Char} (other : Text.isNamePart c = true ∨ c = '.' ∨ c = '*' ∨ c = '@') :
    Text.isBlank c = false ∧ c ≠ '=' := by
  rcases other with part | rfl | rfl | rfl
  · refine ⟨(name_part_visible part).1, ?_⟩
    rintro rfl
    exact absurd part (by decide)
  · decide
  · decide
  · decide

-- The end of a token in which a statement can end. A name could go on there only behind a name or a number.
theorem closing_end {token : Token} {text : List Char} (spelled : token.Spelled text) (filled : text ≠ [])
    (closes : token.closes = true) (plain : ∀ value, token ≠ .str value) :
    ∃ front last, text = front ++ [last] ∧ Text.isBlank last = false ∧ last ≠ '=' ∧
      (Text.isWordChar last = true → token.endsName = true ∨ token.isNumber = true) := by
  have split := (List.dropLast_append_getLast filled).symm
  by_cases marked : ∃ mark, token = .symbol mark
  · obtain ⟨mark, rfl⟩ := marked
    have listed : ∀ entry ∈ Symbol.table,
        (entry.2 = .rightParen → entry.1 = [')']) ∧ (entry.2 = .star → entry.1 = ['*']) := by
      decide
    obtain ⟨paren, star⟩ := listed _ spelled
    simp only [Token.closes, Bool.or_eq_true, beq_iff_eq] at closes
    rcases closes with rfl | rfl
    · obtain rfl : text = [')'] := paren rfl
      exact ⟨[], ')', rfl, by decide, by decide, fun word => absurd word (by decide)⟩
    · obtain rfl : text = ['*'] := star rfl
      exact ⟨[], '*', rfl, by decide, by decide, fun word => absurd word (by decide)⟩
  · have chars := spelled_chars spelled plain fun mark same => marked ⟨mark, same⟩
    obtain ⟨visible, unequal⟩ := word_char_ends (chars _ (List.getLast_mem filled))
    refine ⟨text.dropLast, text.getLast filled, split, visible, unequal, fun word => ?_⟩
    cases token with
    | keyword | ident | qualified | param => exact .inl rfl
    | int | decimal => exact .inr rfl
    | str value => exact absurd rfl (plain value)
    | symbol mark => exact absurd ⟨mark, rfl⟩ marked
    | tableWildcard table =>
      obtain ⟨first, others, -, -, -, rfl⟩ := spelled
      have star : (table.toList ++ ['.', '*']).getLast filled = '*' := by simp
      rw [star] at word
      exact absurd word (by decide)

end Token

namespace Screen

open Place

-- What is shown of tokens of statements ends visibly, and not in an equality sign.
theorem shown_end {front : List Lexeme} {stop : Nat} {shown after : List Char} (ends : EndsIn front stop shown after)
    (closed : front = [] ∨ Closed (front.map Lexeme.token))
    (plain : ∀ last ∈ front.getLast?, ∀ value, last.token ≠ .str value) :
    shown = [] ∨ ∃ earlier c, shown = earlier ++ [c] ∧ Text.isBlank c = false ∧ c ≠ '=' ∧
      (Text.isWordChar c = true → NameEnds after ∨ ∃ last ∈ front.getLast?, last.span.stop = stop ∧
        last.token.isNumber = true) := by
  rcases closed with empty | ⟨tokens, token, same, closes⟩
  · exact .inl (ends.empty empty)
  · have ended : front.getLast?.map Lexeme.token = some token := by
      rw [← List.getLast?_map, same, List.getLast?_concat]
    obtain ⟨last, member, rfl⟩ := Option.map_eq_some_iff.1 ended
    obtain ⟨stops, string | ⟨earlier, text, rfl, scanned⟩⟩ := ends.last last member
    · obtain ⟨value, string⟩ := string
      exact absurd string (plain last member value)
    · obtain ⟨behind, c, rfl, visible, unequal, wordy⟩ :=
        closing_end (scan_spelled scanned) (scan_append scanned).2 closes (plain last member)
      refine .inr ⟨earlier ++ behind, c, by simp, visible, unequal, fun word => ?_⟩
      rcases wordy word with name | number
      · exact .inl (scan_ends scanned name)
      · exact .inr ⟨last, member, stops, number⟩

theorem shown_unequal {shown blank : List Char} (blanks : ∀ c ∈ blank, Text.isBlank c = true)
    (ended : shown = [] ∨ ∃ earlier c, shown = earlier ++ [c] ∧ Text.isBlank c = false ∧ c ≠ '=')
    (front last : List Char) (same : shown ++ blank = front ++ '=' :: last) : ¬ ∀ c ∈ last, Text.isBlank c = true := by
  intro lastBlank
  have equals := equals_visible.1
  rcases ended with rfl | ⟨earlier, c, rfl, visible, unequal⟩
  · rw [blanks '=' (by rw [List.nil_append] at same; simp [same])] at equals
    cases equals
  · have backward : blank.reverse ++ c :: earlier.reverse = last.reverse ++ '=' :: front.reverse := by
      simpa using congrArg List.reverse same
    obtain ⟨-, behind⟩ := runs_unique backward (fun d member => blanks d (List.mem_reverse.1 member))
      (fun d member => lastBlank d (List.mem_reverse.1 member)) (stops_cons visible _) (stops_cons equals _)
    exact unequal (List.cons.inj behind).1

end Screen

theorem Token.begins_name {token : Token} {text : List Char} (spelled : token.Spelled text)
    (begins : token.beginsName = true) : ∃ c rest, text = c :: rest ∧ Text.isNameStart c = true := by
  have word {first : List Char} (word : Text.isWord first = true) (rest : List Char) :
      ∃ c others, first ++ rest = c :: others ∧ Text.isNameStart c = true := by
    obtain ⟨c, others, rfl, start, -⟩ := word_start word
    exact ⟨c, others ++ rest, rfl, start⟩
  cases token with
  | keyword | ident => simpa using word spelled.1 []
  | qualified parts =>
    obtain ⟨first, others, isWord, -, -, rfl⟩ := spelled
    exact word isWord _
  | tableWildcard table =>
    obtain ⟨first, others, isWord, -, same, rfl⟩ := spelled
    rw [same, List.append_assoc]
    exact word isWord _
  | _ => cases begins

theorem Token.word_is_name {chars : List Char} (word : Text.isWord chars = true) : Screen.IsName chars where
  start := by
    obtain ⟨c, rest, same, start, -⟩ := word_start word
    exact ⟨c, rest, same, start⟩
  word c member := Text.name_part_word (word_parts chars word c member)

namespace Screen

open Place

theorem equals_spelled {text : List Char} (spelled : (Token.symbol .eq).Spelled text) : text = ['='] := by
  have listed : ∀ entry ∈ Symbol.table, entry.2 = .eq → entry.1 = ['='] := by decide
  exact listed _ spelled rfl

-- In front of the keyword of a binding no word goes on, and there is no equality sign.
theorem front_clear {front : List Lexeme} {keyword : Span} {offset : Nat} {shown skipped blank after : List Char}
    (ends : EndsIn front offset shown (skipped ++ (['l', 'e', 't'] ++ after)))
    (closed : front = [] ∨ Closed (front.map Lexeme.token))
    (plain : ∀ last ∈ front.getLast?, ∀ value, last.token ≠ .str value)
    (apart : ∀ last ∈ front.getLast?, last.token.isNumber = true → last.span.stop ≠ keyword.start)
    (start : keyword.start = offset + Text.width skipped) (blanked : Blanks skipped blank) :
    (∀ c, (shown ++ blank).getLast? = some c → Text.isWordChar c = false) ∧
      ∀ before last, shown ++ blank = before ++ '=' :: last → ¬ ∀ c ∈ last, Text.isBlank c = true := by
  have ended := shown_end ends closed plain
  constructor
  · intro c last
    by_cases empty : blank = []
    · obtain rfl := (blanks_empty blanked).1 empty
      rw [empty, List.append_nil] at last
      rcases ended with rfl | ⟨earlier, d, rfl, -, -, wordy⟩
      · cases last
      · rw [List.getLast?_concat] at last
        obtain rfl := Option.some.inj last
        cases word : Text.isWordChar d with
        | false => rfl
        | true =>
          rcases wordy word with named | ⟨token, member, stops, number⟩
          · exact absurd (named 'l' _ rfl) (by decide)
          · exact absurd (stops.trans start.symm) (apart token member number)
    · obtain ⟨d, found⟩ : ∃ d, blank.getLast? = some d := ⟨_, List.getLast?_eq_some_getLast empty⟩
      rw [last_of_append shown found] at last
      obtain rfl := Option.some.inj last
      exact Text.blank_not_word (blanked.blank d (List.mem_of_getLast? found))
  · apply shown_unequal blanked.blank
    refine ended.imp_right ?_
    rintro ⟨earlier, c, same, visible, unequal, -⟩
    exact ⟨earlier, c, same, visible, unequal⟩

-- The tokens of a binding with a value that begins with a name, as they are shown.
theorem binding_shown {offset : Nat} {chars skipped letters behind : List Char} {keyword nameSpan mark : Span}
    {name : String} {next : Lexeme} {rest : List Lexeme}
    (opens : Lexeme.Opens offset chars ⟨.keyword .let, keyword⟩ skipped letters behind)
    (inner : Lexeme.read keyword.stop behind = .ok (⟨.ident name, nameSpan⟩ :: ⟨.symbol .eq, mark⟩ :: next :: rest))
    (begins : next.token.beginsName = true) :
    ∃ gap middle last value left, LetText gap name.toList middle last value ∧ Stops Text.isWordChar left ∧
      blankOut .code behind = gap ++ (name.toList ++ (middle ++ '=' :: (last ++ value))) ++ left ∧
      nameSpan.start = keyword.stop + Text.width gap := by
  obtain ⟨gap, nameText, behindName, nameOpens, inner⟩ := Lexeme.read_cons inner
  obtain ⟨middle, markText, behindMark, markOpens, inner⟩ := Lexeme.read_cons inner
  obtain ⟨last, valueText, behindValue, valueOpens, -⟩ := Lexeme.read_cons inner
  obtain ⟨nameWord, rfl⟩ := Token.scan_spelled nameOpens.scanned
  obtain rfl := equals_spelled (Token.scan_spelled markOpens.scanned)
  obtain ⟨first, others, rfl, start⟩ := Token.begins_name (Token.scan_spelled valueOpens.scanned) begins
  have valuePlain : ∀ value, next.token ≠ .str value := by
    intro value string
    rw [string] at begins
    cases begins
  obtain ⟨gapShown, nameShown, gapBlank⟩ := shown_opens nameOpens (by simp)
  obtain ⟨middleShown, markShown, middleBlank⟩ := shown_opens markOpens (by simp)
  obtain ⟨lastShown, valueShown, lastBlank⟩ := shown_opens valueOpens valuePlain
  obtain ⟨value, left, split, kept, stops, -⟩ :=
    run_cases Text.isWordChar [] (first :: (others ++ blankOut .code behindValue))
  have parted : gapShown ≠ [] := by
    intro empty
    -- the name would go on from the keyword
    obtain rfl := (blanks_empty gapBlank).1 empty
    obtain ⟨c, tail, same, start, -⟩ := word_start nameWord
    have separate := Token.scan_ends opens.scanned rfl c (tail ++ behindName) (by rw [nameOpens.whole, same]; rfl)
    rw [Text.name_start_part start] at separate
    cases separate
  refine ⟨gapShown, middleShown, lastShown, value, left, ⟨parted, gapBlank.blank, Token.word_is_name nameWord,
    middleBlank.blank, lastBlank.blank, name_of_run start split kept stops⟩, stops, ?_, ?_⟩
  · rw [nameShown, markShown, valueShown]
    simp [← split]
  · rw [gapBlank.width]
    exact nameOpens.start

-- A binding is found, if it looks like one.
theorem binding_found {source : String} {front rest : List Lexeme} {keyword nameSpan mark : Span} {name : String}
    {next : Lexeme} (tokens : tokenize source = .ok (front ++
      ⟨.keyword .let, keyword⟩ :: ⟨.ident name, nameSpan⟩ :: ⟨.symbol .eq, mark⟩ :: next :: rest))
    (closed : front = [] ∨ Closed (front.map Lexeme.token)) (lower : keyword.textIn source = "let")
    (begins : next.token.beginsName = true) (plain : ∀ last ∈ front.getLast?, ∀ value, last.token ≠ .str value)
    (apart : ∀ last ∈ front.getLast?, last.token.isNumber = true → last.span.stop ≠ keyword.start) :
    ∃ stop second, (⟨name, ⟨nameSpan.start, stop⟩⟩, second) ∈ allIn letBinding (blankOut .code source.toList) := by
  obtain ⟨before, chars, shown, whole, inner, same, shownWidth, ends⟩ := read_split front tokens
  obtain ⟨skipped, letters, behind, opens, inner⟩ := Lexeme.read_cons inner
  have split := opens.whole
  obtain rfl : letters = ['l', 'e', 't'] := by
    have text := @Span.text_in_split source (before ++ skipped) letters behind keyword (by rw [whole, split]; simp)
      (by rw [opens.start, Text.width_append, Nat.zero_add]) opens.stop
    rw [lower] at text
    simpa using (congrArg String.toList text).symm
  obtain ⟨blank, letShown, blanked⟩ := shown_opens opens (by simp)
  obtain ⟨gap, middle, last, value, left, text, stops, behindShown, nameStart⟩ := binding_shown opens inner begins
  rw [split] at ends
  obtain ⟨boundary, free⟩ := front_clear ends closed plain apart opens.start blanked
  have screened : blankOut .code source.toList =
      (shown ++ blank) ++ (letText gap name.toList middle last value ++ left) := by
    rw [same, letShown, behindShown, letText]
    simp
  obtain ⟨second, place, matched⟩ := let_binding_between (shown ++ blank) text boundary stops
  have start : Text.width (shown ++ blank ++ ['l'] ++ ['e'] ++ ['t'] ++ gap) = nameSpan.start := by
    have letters : Text.width ['l'] + Text.width ['e'] + Text.width ['t'] = Text.width ['l', 'e', 't'] := rfl
    have begun : keyword.start = 0 + Text.width before + Text.width skipped := opens.start
    have ended : keyword.stop = keyword.start + Text.width ['l', 'e', 't'] := opens.stop
    simp only [Text.width_append, shownWidth, blanked.width]
    omega
  rw [start, String.ofList_toList] at matched
  -- the name of the binding is neither blank nor an equality sign
  have visible := name_visible text.name (middle ++ '=' :: (last ++ value) ++ left)
  have unequal : (name.toList ++ (middle ++ '=' :: (last ++ value) ++ left)).head? ≠ some '=' := by
    obtain ⟨c, others, same, start⟩ := text.name.start
    rw [same]
    rintro ⟨⟩
    exact absurd start (by decide)
  have after : letText gap name.toList middle last value ++ left =
      ['l', 'e', 't'] ++ (gap ++ (name.toList ++ (middle ++ '=' :: (last ++ value) ++ left))) := by
    simp [letText]
  rw [after] at matched screened
  rw [screened]
  have clear := let_bindings_clear text.parted text.gap visible unequal boundary free
  refine ⟨_, second, occurrences_reach matched clear _ [] (shown ++ blank) rfl ?_⟩
  rw [@List.length_append _ (shown ++ blank)]
  omega

-- The other mistakes are reported as what they are.
theorem undefined_fault {source : String} {word : Word} (fault : fault? source = some (.undefined word)) :
    undefined? (allIn letBinding (blankOut .code source.toList)) (blankOut .code source.toList) =
      some (.undefined word) := by
  simp only [fault?, Option.orElse_eq_orElse, Option.orElse_eq_or, Option.or_eq_some_iff] at fault
  rcases fault with missing | ⟨-, circular | ⟨-, digit | ⟨-, undefined⟩⟩⟩
  · obtain ⟨⟨table, function⟩, -, found⟩ := List.exists_of_findSome?_eq_some missing
    dsimp only at found
    split at found <;> cases found
  · obtain ⟨⟨bound, first⟩, -, found⟩ := List.exists_of_findSome?_eq_some circular
    obtain ⟨name, -, same⟩ := Option.map_eq_some_iff.1 found
    cases same
  · obtain ⟨name, -, same⟩ := Option.map_eq_some_iff.1 digit
    cases same
  · exact undefined

-- An undefined variable is bound nowhere in front of its use, as far as screening finds bindings.
theorem undefined_unbound {source : String} {word : Word} (fault : fault? source = some (.undefined word))
    {bound second : Word} (listed : (bound, second) ∈ allIn letBinding (blankOut .code source.toList))
    (named : bound.text = word.text) : word.span.start ≤ bound.span.start := by
  obtain ⟨base, -, found⟩ := List.exists_of_findSome?_eq_some (undefined_fault fault)
  dsimp only at found
  split at found
  · cases found
  · rename_i unbound
    cases found
    simp only [Bool.or_eq_true, not_or, List.any_eq_true, not_exists, not_and] at unbound
    have late := unbound.2 (bound, second) listed
    simpa [named] using late

end Screen

theorem undefined_names_look_unbound (source : String) (lexemes : List Lexeme) (script : Script) (word : Screen.Word)
    (tokens : tokenize source = .ok lexemes) (parsed : Script.parse lexemes (Text.width source.toList) = .ok script)
    (fault : Screen.fault? source = some (.undefined word)) (nameSpan : Span) (value : Pipe)
    (bound : .bind word.text nameSpan value ∈ script.statements) (earlier : nameSpan.start < word.span.start) :
    ∃ front keyword mark next rest, lexemes = front ++
      ⟨.keyword .let, keyword⟩ :: ⟨.ident word.text, nameSpan⟩ :: ⟨.symbol .eq, mark⟩ :: next :: rest ∧
      (keyword.textIn source ≠ "let" ∨ next.token.beginsName = false ∨ ∃ last ∈ front.getLast?,
        (∃ text, last.token = .str text) ∨ last.token.isNumber = true ∧ last.span.stop = keyword.start) := by
  obtain ⟨front, _, back, rfl, ⟨keyword, mark, rest, rfl, printed⟩, closed⟩ := Script.statement_taken parsed bound
  cases rest with
  | nil =>
    obtain ⟨_, _, empty, -⟩ := Pipe.prints_closed printed
    simp at empty
  | cons next rest =>
    refine ⟨front, keyword, mark, next, rest ++ back, rfl, ?_⟩
    by_contra usual
    simp only [not_or, not_exists, not_and, not_not, Bool.not_eq_false] at usual
    obtain ⟨lower, begins, plain⟩ := usual
    obtain ⟨stop, second, listed⟩ := Screen.binding_found tokens closed lower begins
      (fun last member text => (plain last member).1 text) fun last member => (plain last member).2
    exact absurd (Screen.undefined_unbound fault listed rfl) (Nat.not_le.2 earlier)

theorem binding_behind_string_looks_unbound :
    ∃ lexemes script value, tokenize "let a = 'x'\nlet my_rows = t\nmy_rows |> limit(2)" = .ok lexemes ∧
      Script.parse lexemes 47 = .ok script ∧
      Screen.fault? "let a = 'x'\nlet my_rows = t\nmy_rows |> limit(2)" = some (.undefined ⟨"my_rows", ⟨28, 35⟩⟩) ∧
      .bind "my_rows" ⟨16, 23⟩ value ∈ script.statements ∧
      ∃ front keyword mark next rest, lexemes = front ++
        ⟨.keyword .let, keyword⟩ :: ⟨.ident "my_rows", ⟨16, 23⟩⟩ :: ⟨.symbol .eq, mark⟩ :: next :: rest ∧
        (keyword.textIn "let a = 'x'\nlet my_rows = t\nmy_rows |> limit(2)" ≠ "let" ∨ next.token.beginsName = false ∨
          ∃ last ∈ front.getLast?, (∃ text, last.token = .str text) ∨
            last.token.isNumber = true ∧ last.span.stop = keyword.start) := by
  have tokens : tokenize "let a = 'x'\nlet my_rows = t\nmy_rows |> limit(2)" = .ok [⟨.keyword .let, ⟨0, 3⟩⟩,
      ⟨.ident "a", ⟨4, 5⟩⟩, ⟨.symbol .eq, ⟨6, 7⟩⟩, ⟨.str "x", ⟨8, 11⟩⟩, ⟨.keyword .let, ⟨12, 15⟩⟩,
      ⟨.ident "my_rows", ⟨16, 23⟩⟩, ⟨.symbol .eq, ⟨24, 25⟩⟩, ⟨.ident "t", ⟨26, 27⟩⟩, ⟨.ident "my_rows", ⟨28, 35⟩⟩,
      ⟨.symbol .pipe, ⟨36, 38⟩⟩, ⟨.ident "limit", ⟨39, 44⟩⟩, ⟨.symbol .leftParen, ⟨44, 45⟩⟩, ⟨.int "2", ⟨45, 46⟩⟩,
      ⟨.symbol .rightParen, ⟨46, 47⟩⟩] := by decide +kernel
  have parsed : Script.parse [⟨.keyword .let, ⟨0, 3⟩⟩, ⟨.ident "a", ⟨4, 5⟩⟩, ⟨.symbol .eq, ⟨6, 7⟩⟩,
      ⟨.str "x", ⟨8, 11⟩⟩, ⟨.keyword .let, ⟨12, 15⟩⟩, ⟨.ident "my_rows", ⟨16, 23⟩⟩, ⟨.symbol .eq, ⟨24, 25⟩⟩,
      ⟨.ident "t", ⟨26, 27⟩⟩, ⟨.ident "my_rows", ⟨28, 35⟩⟩, ⟨.symbol .pipe, ⟨36, 38⟩⟩, ⟨.ident "limit", ⟨39, 44⟩⟩,
      ⟨.symbol .leftParen, ⟨44, 45⟩⟩, ⟨.int "2", ⟨45, 46⟩⟩, ⟨.symbol .rightParen, ⟨46, 47⟩⟩] 47 =
      .ok ⟨.bind "a" ⟨4, 5⟩ ⟨.literal ⟨8, 11⟩ (.str "x"), []⟩, [.bind "my_rows" ⟨16, 23⟩ ⟨.ident ⟨26, 27⟩ "t", []⟩,
        .query ⟨.ident ⟨28, 35⟩ "my_rows", [.call ⟨39, 47⟩ ⟨"limit", ⟨39, 44⟩, false⟩
          [.literal ⟨45, 46⟩ (.int "2")]]⟩]⟩ := by
    set_option maxRecDepth 4000 in rfl
  have fault : Screen.fault? "let a = 'x'\nlet my_rows = t\nmy_rows |> limit(2)" =
      some (.undefined ⟨"my_rows", ⟨28, 35⟩⟩) := by decide +kernel
  refine ⟨_, _, _, tokens, parsed, fault, .tail _ (.head _), ?_⟩
  exact undefined_names_look_unbound _ _ _ _ tokens parsed fault _ _ (.tail _ (.head _)) (by decide)

theorem capital_keyword_binds_undefined_name :
    ∃ lexemes script value, tokenize "LET my_rows = t\nmy_rows |> limit(2)" = .ok lexemes ∧
      Script.parse lexemes 35 = .ok script ∧ .bind "my_rows" ⟨4, 11⟩ value ∈ script.statements ∧ value.span.stop = 15 ∧
      Screen.fault? "LET my_rows = t\nmy_rows |> limit(2)" = some (.undefined ⟨"my_rows", ⟨16, 23⟩⟩) := by
  have tokens : tokenize "LET my_rows = t\nmy_rows |> limit(2)" = .ok [⟨.keyword .let, ⟨0, 3⟩⟩,
      ⟨.ident "my_rows", ⟨4, 11⟩⟩, ⟨.symbol .eq, ⟨12, 13⟩⟩, ⟨.ident "t", ⟨14, 15⟩⟩, ⟨.ident "my_rows", ⟨16, 23⟩⟩,
      ⟨.symbol .pipe, ⟨24, 26⟩⟩, ⟨.ident "limit", ⟨27, 32⟩⟩, ⟨.symbol .leftParen, ⟨32, 33⟩⟩, ⟨.int "2", ⟨33, 34⟩⟩,
      ⟨.symbol .rightParen, ⟨34, 35⟩⟩] := by decide +kernel
  refine ⟨_, ⟨.bind "my_rows" ⟨4, 11⟩ ⟨.ident ⟨14, 15⟩ "t", []⟩, [.query ⟨.ident ⟨16, 23⟩ "my_rows",
    [.call ⟨27, 35⟩ ⟨"limit", ⟨27, 32⟩, false⟩ [.literal ⟨33, 34⟩ (.int "2")]]⟩]⟩, _, tokens, ?_, .head _, rfl, ?_⟩
  · set_option maxRecDepth 4000 in rfl
  · decide +kernel

end PipeSql
