import PipeSql.Proofs.Token.Tiled

set_option autoImplicit false

namespace PipeSql.Token

-- Whether a character behind a token belongs to it or makes it another one.
def goesOn : Token → Char → Bool
  | .keyword _, c => Text.isNamePart c || c == '.'
  | .ident _, c => Text.isNamePart c || c == '.'
  | .qualified _, c => Text.isNamePart c || c == '.'
  | .tableWildcard _, _ => false
  | .param _, c => Text.isNamePart c
  | .str _, c => c == '\''
  | .int _, c => c.isDigit || c == '.'
  | .decimal _, c => c.isDigit
  | .symbol mark, c => Symbol.table.any fun entry => entry.1 == mark.spelling.toList ++ [c]

def EndsBefore (token : Token) (rest : List Char) : Prop :=
  ∀ c, rest.head? = some c → token.goesOn c = false

theorem ends_before_nil (token : Token) : token.EndsBefore [] := by
  rintro c ⟨⟩

theorem ends_before_space (token : Token) (rest : List Char) : token.EndsBefore (' ' :: rest) := by
  rintro c ⟨⟩
  cases token with
  | symbol mark => cases mark <;> rfl
  | _ => rfl

theorem or_point {accepted : Bool} {c : Char} (stopped : (accepted || c == '.') = false) :
    accepted = false ∧ c ≠ '.' := by
  simpa using stopped

theorem no_point {rest : List Char} (other : ∀ c, rest.head? = some c → c ≠ '.') (more : List Char) :
    rest ≠ '.' :: more := by
  rintro rfl
  exact other '.' rfl rfl

theorem of_path_goes_on (first : List Char) (parts : List (List Char)) (c : Char) :
    (ofPath first parts).goesOn c = (Text.isNamePart c || c == '.') := by
  unfold ofPath
  split
  · split <;> rfl
  · rfl

theorem scan_name_stops {first rest text after : List Char} {token : Token} (ended : NameEnds rest)
    (found : scanName first rest = .found token text after) : token.EndsBefore after := by
  have behind := dotted_parts_end ended
  unfold scanName at found
  split at found
  · cases found
    exact fun c _ => rfl
  · cases found
  · rename_i beyond _ dotless
    cases found
    intro c head
    obtain ⟨more, same⟩ := List.head?_eq_some_iff.1 head
    rw [of_path_goes_on, behind c more same, Bool.false_or, beq_eq_false_iff_ne]
    rintro rfl
    exact dotless more same

theorem digit_ends_drop (chars : List Char) :
    ∀ c, (chars.dropWhile Char.isDigit).head? = some c → c.isDigit = false := by
  intro c head
  have stopped := List.head?_dropWhile_not Char.isDigit chars
  rw [head] at stopped
  simpa using stopped

theorem scan_number_stops {whole rest text after : List Char} {token : Token}
    (ended : ∀ c, rest.head? = some c → c.isDigit = false)
    (found : scanNumber whole rest = .found token text after) : token.EndsBefore after := by
  unfold scanNumber at found
  split at found
  · split at found
    · cases found
      exact digit_ends_drop _
    · cases found
  · cases found
  · rename_i pointed single
    cases found
    intro c head
    rw [goesOn, ended c head, Bool.false_or, beq_eq_false_iff_ne]
    rintro rfl
    obtain ⟨more, rfl⟩ := List.head?_eq_some_iff.1 head
    cases more with
    | nil => exact single rfl
    | cons d beyond => exact pointed d beyond rfl

end PipeSql.Token

namespace PipeSql.Symbol

-- The table has the longer symbols first, so that the first one that fits is the longest.
theorem longest_first {chars : List Char} {entry : List Char × Symbol}
    (found : (table.find? fun entry => entry.1.isPrefixOf chars) = some entry) {other : List Char × Symbol}
    (listed : other ∈ table) (fits : other.1 <+: chars) : other.1.length ≤ entry.1.length := by
  have sorted : table.Pairwise fun first second => second.1.length ≤ first.1.length := by decide
  obtain ⟨_, before, after, parts, unfit⟩ := List.find?_eq_some_iff_append.1 found
  rw [parts] at listed sorted
  rcases List.mem_append.1 listed with earlier | later
  · have agrees := unfit other earlier
    rw [List.isPrefixOf_iff_prefix.2 fits] at agrees
    cases agrees
  · rcases List.mem_cons.1 later with rfl | later
    · exact Nat.le_refl _
    · exact (List.pairwise_cons.1 (List.pairwise_append.1 sorted).2.1).1 other later

end PipeSql.Symbol

namespace PipeSql.Token

theorem symbol_short : ∀ entry ∈ Symbol.table, entry.1.length ≤ 2 := by
  decide

theorem symbol_spelled_once :
    ∀ entry ∈ Symbol.table, ∀ other ∈ Symbol.table, entry.1 = other.1 → entry.2 = other.2 := by
  decide

-- A symbol goes on with a character if and only if both together are a symbol.
theorem symbol_goes_on {text : List Char} {mark : Symbol} (listed : (text, mark) ∈ Symbol.table) (c : Char) :
    (symbol mark).goesOn c = true ↔ ∃ longer, (text ++ [c], longer) ∈ Symbol.table := by
  -- inequality is spelled in two ways, but nothing is longer than either
  have spelled : ∀ entry ∈ Symbol.table, entry.1 = entry.2.spelling.toList ∨
      2 ≤ entry.1.length ∧ 2 ≤ entry.2.spelling.toList.length := by decide
  have long : ∀ chars : List Char, 2 ≤ chars.length → ∀ longer, (chars ++ [c], longer) ∉ Symbol.table := by
    intro chars two longer member
    have short := symbol_short _ member
    simp only [List.length_append, List.length_singleton] at short
    omega
  have iff : (symbol mark).goesOn c = true ↔ ∃ longer, (mark.spelling.toList ++ [c], longer) ∈ Symbol.table := by
    rw [goesOn, List.any_eq_true]
    constructor
    · rintro ⟨⟨chars, longer⟩, member, same⟩
      rw [beq_iff_eq] at same
      exact ⟨longer, same ▸ member⟩
    · rintro ⟨longer, member⟩
      exact ⟨_, member, beq_self_eq_true _⟩
  rw [iff]
  rcases spelled _ listed with same | ⟨written, canonical⟩
  · rw [← same]
  · constructor
    · rintro ⟨longer, member⟩
      exact absurd member (long _ canonical longer)
    · rintro ⟨longer, member⟩
      exact absurd member (long _ written longer)

theorem scan_symbol_stops {chars text after : List Char} {token : Token}
    (found : scanSymbol chars = .found token text after) : token.EndsBefore after := by
  have listed := scan_symbol_spelled found
  obtain ⟨whole, -⟩ := scan_symbol_append found
  unfold scanSymbol at found
  split at found
  · rename_i spelling mark first
    cases found
    intro c head
    rw [Bool.eq_false_iff]
    intro more
    obtain ⟨longer, member⟩ := (symbol_goes_on listed c).1 more
    obtain ⟨others, beyond⟩ := List.head?_eq_some_iff.1 head
    have fits : text ++ [c] <+: chars := ⟨others, by rw [← whole, beyond]; simp⟩
    have bound := Symbol.longest_first first member fits
    simp only [List.length_append, List.length_singleton] at bound
    omega
  · split at found
    · cases found
    · split at found <;> cases found

theorem scan_ends_before {chars text after : List Char} {token : Token} (found : scan chars = .found token text after)
    (plain : ∀ value, token ≠ .str value) : token.EndsBefore after := by
  rcases scan_cases found with ⟨c, rest, start, found⟩ | ⟨c, rest, digit, found⟩ | ⟨rest, value, raw, -, -, rfl, -⟩ |
    ⟨d, rest, start, rfl, -, rfl⟩ | found
  · exact scan_name_stops (name_ends_drop rest) found
  · exact scan_number_stops (digit_ends_drop rest) found
  · exact absurd rfl (plain _)
  · intro c head
    obtain ⟨more, same⟩ := List.head?_eq_some_iff.1 head
    exact name_ends_drop rest c more same
  · exact scan_symbol_stops found

theorem scan_symbol_stopped {text rest : List Char} {mark : Symbol} (listed : (text, mark) ∈ Symbol.table)
    (ends : (symbol mark).EndsBefore rest) : scanSymbol (text ++ rest) = .found (.symbol mark) text rest := by
  have fits : text <+: text ++ rest := List.prefix_append text rest
  cases first : Symbol.table.find? fun entry => entry.1.isPrefixOf (text ++ rest) with
  | none =>
    have unfit := List.find?_eq_none.1 first _ listed
    exact absurd (List.isPrefixOf_iff_prefix.2 fits) unfit
  | some entry =>
    have member := List.mem_of_find?_eq_some first
    have agrees := List.find?_some first
    rw [List.isPrefixOf_iff_prefix] at agrees
    have bound := Symbol.longest_first first listed fits
    -- a longer symbol would begin with this one and go on with the next character
    have same : entry.1 = text := by
      obtain ⟨tail, longer⟩ := List.prefix_of_prefix_length_le fits agrees bound
      cases tail with
      | nil => rw [← longer, List.append_nil]
      | cons d tail =>
        have filled : ∀ entry ∈ Symbol.table, 0 < entry.1.length := by decide
        have positive : 0 < text.length := filled _ listed
        have short := symbol_short _ member
        rw [← longer, List.length_append, List.length_cons] at short
        obtain rfl := List.eq_nil_of_length_eq_zero (by omega : tail.length = 0)
        obtain ⟨beyond, parts⟩ := agrees
        rw [← longer, List.append_assoc] at parts
        have head : rest.head? = some d := by
          rw [← List.append_cancel_left parts]
          rfl
        have more := (symbol_goes_on listed d).2 ⟨entry.2, longer ▸ member⟩
        rw [ends d head] at more
        cases more
    have marked := symbol_spelled_once _ member _ listed same
    unfold scanSymbol
    rw [first]
    simp [same, marked]

theorem scan_mark {text : List Char} {mark : Symbol} (listed : (text, mark) ∈ Symbol.table) (rest : List Char) :
    scan (text ++ rest) = scanSymbol (text ++ rest) := by
  have begins : ∀ entry ∈ Symbol.table, entry.1.head?.any (fun c => !Text.isNameStart c && !c.isDigit && c != '\'' &&
      c != '@') = true := by decide
  have first := begins _ listed
  rw [Option.any_eq_true] at first
  obtain ⟨c, head, other⟩ := first
  obtain ⟨others, rfl⟩ := List.head?_eq_some_iff.1 head
  simp only [Bool.and_eq_true, Bool.not_eq_true', bne_iff_ne] at other
  obtain ⟨⟨⟨start, digit⟩, quote⟩, sign⟩ := other
  rw [List.cons_append, scan.eq_def]
  dsimp only
  rw [if_neg (by rw [start]; decide), if_neg (by rw [digit]; decide), if_neg quote, if_neg sign]

-- The converse of `scan_ends_before`.
theorem scan_stopped {text rest : List Char} {token : Token} (spelled : token.Spelled text) (sound : token.Sound)
    (plain : ∀ value, token ≠ .str value) (ends : token.EndsBefore rest) :
    scan (text ++ rest) = .found token text rest := by
  have single (word : Text.isWord text = true)
      (ended : ∀ c, rest.head? = some c → (Text.isNamePart c || c == '.') = false) :
      scan (text ++ rest) = .found (ofPath text []) text rest := by
    have scanned := @scan_path_ended text [] rest word (fun _ member => absurd member List.not_mem_nil)
      (fun c head => (or_point (ended c head)).1) (no_point fun c head => (or_point (ended c head)).2)
    rwa [pathChars, List.append_nil] at scanned
  cases token with
  | keyword word =>
    obtain ⟨sure, known⟩ := spelled
    rw [single sure ends, ofPath, known]
  | ident name =>
    obtain ⟨sure, rfl⟩ := spelled
    rw [single sure ends, ofPath, String.ofList_toList, sound.2]
  | qualified parts =>
    obtain ⟨first, others, word, words, rfl, rfl⟩ := spelled
    have scanned := scan_path_ended word words (fun c head => (or_point (ends c head)).1)
      (no_point fun c head => (or_point (ends c head)).2)
    rw [scanned]
    cases others with
    | nil => exact absurd sound.1 (Nat.not_succ_le_self 1)
    | cons second others => rfl
  | tableWildcard table =>
    obtain ⟨first, others, word, words, same, rfl⟩ := spelled
    have scanned := scan_table word words rest
    rw [← same, String.ofList_toList] at scanned
    exact scanned
  | param name =>
    obtain ⟨word, rfl⟩ := spelled
    have scanned := scan_param_ended word ends
    rw [String.ofList_toList] at scanned
    exact scanned
  | str value => exact absurd rfl (plain value)
  | int digits =>
    obtain ⟨number, rfl⟩ := spelled
    have scanned := scan_whole_ended number (fun c head => (or_point (ends c head)).1)
      (no_point fun c head => (or_point (ends c head)).2)
    rw [String.ofList_toList] at scanned
    exact scanned
  | decimal digits =>
    obtain ⟨whole, fraction, wholeDigits, fractionDigits, rfl, same⟩ := spelled
    have scanned := scan_decimal_ended wholeDigits fractionDigits ends
    rw [same, String.ofList_toList] at scanned
    rw [same]
    exact scanned
  | symbol mark =>
    rw [scan_mark spelled]
    exact scan_symbol_stopped spelled ends

end PipeSql.Token
