import PipeSql.Proofs.Dialect.Neutral

set_option autoImplicit false

namespace PipeSql

open Text

namespace Piece

theorem literal_end_outside (rest : List Char) : (literalEnd rest).2.head? ≠ some '\'' := by
  induction rest using literalEnd.induct with
  | case1 => simp [literalEnd]
  | case2 rest ih => simpa [literalEnd] using ih
  | case3 rest alone =>
    cases rest with
    | nil => simp [literalEnd]
    | cons c rest =>
      have different : c ≠ '\'' := by
        rintro rfl
        exact alone rest rfl rfl
      simp [literalEnd, different]
  | case4 c rest _ different ih => simpa [literalEnd, different] using ih

-- A literal without its closing quote ends the text.
theorem literal_end_again (rest tail : List Char) (outside : tail.head? ≠ some '\'')
    (ended : (literalEnd rest).2 = [] → tail = []) :
    literalEnd ((literalEnd rest).1 ++ tail) = ((literalEnd rest).1, tail) := by
  induction rest using literalEnd.induct with
  | case1 =>
    rw [ended rfl]
    rfl
  | case2 rest ih =>
    simp only [literalEnd] at ended ⊢
    rw [List.cons_append, List.cons_append, literalEnd, ih ended]
  | case3 rest alone =>
    have closing : (literalEnd ('\'' :: rest)).1 = ['\''] := by
      rw [literalEnd, if_pos rfl]
      exact alone
    rw [closing, List.singleton_append, literal_end_closing tail outside]
  | case4 c rest alone different ih =>
    simp only [literalEnd, different, ite_false] at ended ⊢
    rw [List.cons_append, literalEnd, if_neg different, ih ended]
    exact fun _ quote => absurd quote different

end Piece

namespace Spelling

theorem renamed_split (spelling : Spelling) (qualified : Bool) (word chars : List Char) :
    spelling.renamed? qualified word (Piece.split chars) =
      if qualified = false ∧ chars.head? = some '(' then spelling.rename (asciiUpper (String.ofList word))
      else none := by
  cases renamed : spelling.renamed? qualified word (Piece.split chars) with
  | some name =>
    obtain ⟨rfl, found⟩ := renamed_word spelling renamed
    obtain ⟨⟨others, called⟩, -⟩ := renamed_call spelling renamed
    obtain ⟨rest, rfl, -⟩ := Piece.split_other called
    rw [if_pos ⟨rfl, rfl⟩, found]
  | none =>
    by_cases called : qualified = false ∧ chars.head? = some '('
    · obtain ⟨rfl, head⟩ := called
      obtain ⟨rest, rfl⟩ := List.head?_eq_some_iff.1 head
      rw [Piece.split_separator ⟨by decide, by decide, by decide, by decide⟩] at renamed
      rw [if_pos ⟨rfl, rfl⟩]
      exact renamed.symm
    · rw [if_neg called]

end Spelling

namespace Dialect

-- Respelling leaves the text as it is.
def Settled (dialect : Dialect) (qualified : Bool) (chars : List Char) : Prop :=
  dialect.spelling.write qualified (Piece.split chars) = chars

-- A word that is not renamed, however it goes on.
structure Inert (dialect : Dialect) (word : List Char) : Prop where
  sound : isWord word = true
  kept : ∀ more, dialect.rename? (asciiUpper (String.ofList (word ++ more))) = none

variable {dialect : Dialect} {qualified : Bool} {word chars rest : List Char}

theorem renamed_again {function name : String} (renamed : dialect.rename? function = some name) :
    isWord name.toList = true ∧ dialect.rename? (asciiUpper name) = none := by
  unfold rename? at renamed
  split at renamed
  all_goals cases renamed
  all_goals decide

-- Only one function loses its empty argument list.
theorem renamed_bare {function name : String} (renamed : dialect.rename? function = some name)
    (bare : Spelling.isBare name = true) : dialect = .sqlite ∧ name = "CURRENT_TIMESTAMP" := by
  revert bare
  unfold rename? at renamed
  split at renamed
  all_goals cases renamed
  all_goals decide

theorem renamed_begins {function name : String} (renamed : dialect.rename? function = some name) :
    function.toList.take 2 ≠ ['C', 'U'] := by
  unfold rename? at renamed
  split at renamed
  all_goals cases renamed
  all_goals decide

theorem bare_inert {function name : String} (renamed : dialect.rename? function = some name)
    (bare : Spelling.isBare name = true) : dialect.Inert name.toList := by
  obtain ⟨rfl, rfl⟩ := renamed_bare renamed bare
  refine ⟨by decide, ?_⟩
  intro more
  have begins : (asciiUpper (String.ofList ("CURRENT_TIMESTAMP".toList ++ more))).toList.take 2 = ['C', 'U'] := by
    rw [asciiUpper, String.toList_ofList, String.toList_ofList, List.map_append]
    rfl
  cases again : rename? .sqlite (asciiUpper (String.ofList ("CURRENT_TIMESTAMP".toList ++ more))) with
  | none => rfl
  | some other => exact absurd begins (renamed_begins again)

theorem inert_append (inert : dialect.Inert word) (more : List Char) (parts : ∀ c ∈ more, isNamePart c = true) :
    dialect.Inert (word ++ more) := by
  refine ⟨?_, fun others => List.append_assoc word more others ▸ inert.kept (more ++ others)⟩
  have sound := inert.sound
  cases word with
  | nil => cases sound
  | cons c rest =>
    rw [isWord, Bool.and_eq_true, List.all_eq_true] at sound
    rw [List.cons_append, isWord, Bool.and_eq_true, List.all_append, Bool.and_eq_true, List.all_eq_true,
      List.all_eq_true]
    exact ⟨sound.1, sound.2, parts⟩

theorem settled_nil : dialect.Settled qualified [] := by
  rw [Settled, Piece.split, Spelling.write]

theorem settled_word (sound : isWord word = true) (breaks : Breaks rest)
    (kept : dialect.spelling.renamed? qualified word (Piece.split rest) = none) (settled : dialect.Settled false rest) :
    dialect.Settled qualified (word ++ rest) := by
  rw [Settled, Piece.split_word sound breaks, Spelling.write_kept _ _ kept, settled]

theorem settled_inert (inert : dialect.Inert word) (breaks : Breaks rest)
    (settled : dialect.Settled false rest) : dialect.Settled qualified (word ++ rest) := by
  apply settled_word inert.sound breaks _ settled
  have kept := inert.kept []
  rw [List.append_nil] at kept
  rw [Spelling.renamed_split]
  split
  · exact kept
  · rfl

theorem settled_concat (settled : dialect.Settled false rest) :
    dialect.Settled qualified (dialect.spelling.concat.toList ++ rest) := by
  have bars : Piece.split ('|' :: '|' :: rest) = .bars :: Piece.split rest := by
    rw [Piece.split, if_neg (by decide), if_pos ⟨rfl, rfl⟩]
    rfl
  have plus : Piece.split ('+' :: rest) = .other '+' :: Piece.split rest :=
    Piece.split_separator ⟨by decide, by decide, by decide, by decide⟩ rest
  cases dialect with
  | sqlite | postgresql =>
    change Spelling.write _ qualified (Piece.split ('|' :: '|' :: rest)) = '|' :: '|' :: rest
    rw [bars, Spelling.write, settled]
    rfl
  | sqlserver =>
    change Spelling.write _ qualified (Piece.split ('+' :: rest)) = '+' :: rest
    rw [plus, Spelling.write]
    exact congrArg ('+' :: ·) settled

-- Where no name goes on in the text, none goes on in the respelled one.
theorem write_breaks (breaks : Breaks chars) :
    Breaks (dialect.spelling.write qualified (Piece.split chars)) := by
  intro d head
  cases chars with
  | nil =>
    rw [Piece.split, Spelling.write] at head
    cases head
  | cons c rest =>
    obtain ⟨first, others, written, begins⟩ := write_first dialect qualified c rest
    have stop := breaks c rfl
    rw [written] at head
    cases head
    rcases begins with rfl | ⟨start, -⟩ | ⟨-, rfl⟩
    · exact stop
    · rw [name_start_part start] at stop
      cases stop
    · decide

theorem write_bar (head : (dialect.spelling.write qualified (Piece.split chars)).head? = some '|') :
    chars.head? = some '|' := by
  cases chars with
  | nil =>
    rw [Piece.split, Spelling.write] at head
    cases head
  | cons c rest =>
    obtain ⟨first, others, written, begins⟩ := write_first dialect qualified c rest
    rw [written] at head
    cases head
    rcases begins with rfl | ⟨-, start⟩ | ⟨-, operator⟩
    · rfl
    · cases start
    · cases operator

-- A word is kept or renamed, and neither form is renamed again. The rest follows it as before, unless an empty
-- argument list is dropped.
theorem write_word (dialect : Dialect) (qualified : Bool) (sound : isWord word = true) (rest : List Char) :
    ∃ spelled others, dialect.spelling.write qualified (.word word :: Piece.split rest) =
        spelled ++ dialect.spelling.write false (Piece.split others) ∧
      others.length ≤ rest.length ∧ isWord spelled = true ∧
      (dialect.Inert spelled ∨ others = rest ∧ dialect.spelling.renamed? qualified spelled
        (Piece.split (dialect.spelling.write false (Piece.split rest))) = none) := by
  have called : (dialect.spelling.write false (Piece.split rest)).head? = some '(' ↔ rest.head? = some '(' :=
    write_head dialect false rest (by decide) (by decide) (by decide)
  cases renamed : dialect.spelling.renamed? qualified word (Piece.split rest) with
  | none =>
    refine ⟨word, rest, Spelling.write_kept _ _ renamed, Nat.le_refl _, sound, .inr ⟨rfl, ?_⟩⟩
    rw [Spelling.renamed_split] at renamed ⊢
    simpa only [called] using renamed
  | some name =>
    obtain ⟨-, function, found⟩ := Spelling.renamed_call _ renamed
    obtain ⟨spelled, again⟩ := renamed_again found
    have kept : dialect.spelling.renamed? qualified name.toList
        (Piece.split (dialect.spelling.write false (Piece.split rest))) = none := by
      rw [Spelling.renamed_split, String.ofList_toList]
      split
      · exact again
      · rfl
    by_cases emptied : ∃ others, Piece.split rest = .other '(' :: .other ')' :: others
    · obtain ⟨others, arguments⟩ := emptied
      obtain ⟨inside, rfl, closing⟩ := Piece.split_other arguments
      obtain ⟨after, rfl, rfl⟩ := Piece.split_other closing.symm
      have written := Spelling.write_emptied _ _ (arguments ▸ renamed)
      rw [← arguments] at written
      by_cases bare : Spelling.isBare name = true
      · rw [if_pos bare, List.append_nil] at written
        exact ⟨name.toList, after, written, Nat.le_add_right _ 2, spelled, .inl (bare_inert found bare)⟩
      · refine ⟨name.toList, _, ?_, Nat.le_refl _, spelled, .inr ⟨rfl, kept⟩⟩
        rw [written, if_neg bare, arguments, List.append_assoc]
        rfl
    · exact ⟨name.toList, rest, Spelling.write_renamed _ _ (fun others same => emptied ⟨others, same⟩) renamed,
        Nat.le_refl _, spelled, .inr ⟨rfl, kept⟩⟩

-- Respelling leaves the respelled text as it is, also behind a word that has lost its argument list and takes in
-- the letters that the text begins with.
structure Stable (dialect : Dialect) (chars : List Char) : Prop where
  settled : ∀ qualified, dialect.Settled qualified (dialect.spelling.write qualified (Piece.split chars))
  joined : ∀ qualified word, dialect.Inert word →
    dialect.Settled qualified (word ++ dialect.spelling.write false (Piece.split chars))

theorem stable_ended (breaks : Breaks chars)
    (settled : ∀ qualified, dialect.Settled qualified (dialect.spelling.write qualified (Piece.split chars))) :
    dialect.Stable chars :=
  ⟨settled, fun _ _ inert => settled_inert inert (write_breaks breaks) (settled false)⟩

theorem stable_nil : dialect.Stable [] := by
  refine stable_ended (fun c head => by cases head) fun qualified => ?_
  rw [Piece.split, Spelling.write]
  exact settled_nil

theorem stable_literal (stable : dialect.Stable (Piece.literalEnd rest).2) : dialect.Stable ('\'' :: rest) := by
  refine stable_ended (fun c head => by cases head; decide) fun qualified => ?_
  have outside := (write_head dialect false _ (d := '\'') (by decide) (by decide) (by decide)).not.2
    (Piece.literal_end_outside rest)
  have again := Piece.literal_end_again rest _ outside fun ended => by rw [ended, Piece.split, Spelling.write]
  rw [Piece.split_literal, Spelling.write, List.cons_append, Settled, Piece.split_literal, again, Spelling.write,
    stable.settled false, List.cons_append]

theorem stable_bars (stable : dialect.Stable rest) : dialect.Stable ('|' :: '|' :: rest) := by
  refine stable_ended (fun c head => by cases head; decide) fun qualified => ?_
  rw [Piece.split, if_neg (by decide), if_pos ⟨rfl, rfl⟩, List.tail_cons, Spelling.write]
  exact settled_concat (stable.settled false)

theorem stable_word {c : Char} (start : isNameStart c = true)
    (shorter : ∀ others : List Char, others.length ≤ rest.length → dialect.Stable others) :
    dialect.Stable (c :: rest) := by
  have quote : c ≠ '\'' := by
    rintro rfl
    cases start
  have bars : ¬(c = '|' ∧ rest.head? = some '|') := by
    rintro ⟨rfl, -⟩
    cases start
  have breaks : Breaks (rest.dropWhile isNamePart) := by
    intro d head
    have stops := List.head?_dropWhile_not isNamePart rest
    rw [head] at stops
    simpa using stops
  have fewer := (List.dropWhile_suffix isNamePart (l := rest)).length_le
  have whole : ∀ qualified, dialect.spelling.write qualified (Piece.split (c :: rest)) =
      dialect.spelling.write qualified
        (.word (c :: rest.takeWhile isNamePart) :: Piece.split (rest.dropWhile isNamePart)) := by
    intro qualified
    rw [Piece.split, if_neg quote, if_neg bars, if_pos start]
  have written := fun qualified => write_word dialect qualified (Token.is_word_take c rest start)
    (rest.dropWhile isNamePart)
  constructor
  · intro qualified
    obtain ⟨spelled, others, becomes, short, sound, kept⟩ := written qualified
    have stable := shorter others (short.trans fewer)
    rw [whole, becomes]
    rcases kept with inert | ⟨rfl, kept⟩
    · exact stable.joined qualified spelled inert
    · exact settled_word sound (write_breaks breaks) kept (stable.settled false)
  · intro qualified word inert
    obtain ⟨spelled, others, becomes, short, sound, -⟩ := written false
    have stable := shorter others (short.trans fewer)
    rw [whole, becomes, ← List.append_assoc]
    exact stable.joined qualified _ (inert_append inert spelled (Token.word_parts spelled sound))

theorem stable_other {c : Char} (quote : c ≠ '\'') (bars : ¬(c = '|' ∧ rest.head? = some '|'))
    (start : ¬isNameStart c = true) (stable : dialect.Stable rest) : dialect.Stable (c :: rest) := by
  have written : ∀ qualified, dialect.spelling.write qualified (Piece.split (c :: rest)) =
      c :: dialect.spelling.write (c == '.') (Piece.split rest) := by
    intro qualified
    rw [Piece.split, if_neg quote, if_neg bars, if_neg start, Spelling.write]
  have settled : ∀ qualified,
      dialect.Settled qualified (dialect.spelling.write qualified (Piece.split (c :: rest))) := by
    intro qualified
    have alone : ¬(c = '|' ∧ (dialect.spelling.write (c == '.') (Piece.split rest)).head? = some '|') :=
      fun both => bars ⟨both.1, write_bar both.2⟩
    rw [written, Settled, Piece.split, if_neg quote, if_neg alone, if_neg start, Spelling.write, stable.settled]
  by_cases part : isNamePart c = true
  · refine ⟨settled, fun qualified word inert => ?_⟩
    have dot : (c == '.') = false := by
      rw [beq_eq_false_iff_ne]
      rintro rfl
      cases part
    have longer := inert_append inert [c] fun d member => by rwa [List.mem_singleton.1 member]
    rw [written, dot, ← List.singleton_append, ← List.append_assoc]
    exact stable.joined qualified _ longer
  · exact stable_ended (fun d head => by cases head; simpa using part) settled

theorem all_stable (dialect : Dialect) (chars : List Char) : dialect.Stable chars := by
  generalize bound : chars.length = size
  induction size using Nat.strongRecOn generalizing chars with
  | ind size ih =>
    cases chars with
    | nil => exact stable_nil
    | cons c rest =>
      simp only [List.length_cons] at bound
      have shorter : ∀ others : List Char, others.length ≤ rest.length → dialect.Stable others :=
        fun others short => ih others.length (by omega) others rfl
      by_cases quote : c = '\''
      · subst quote
        have whole := congrArg List.length (Piece.literal_end_append rest)
        rw [List.length_append] at whole
        exact stable_literal (shorter _ (by omega))
      · by_cases bars : c = '|' ∧ rest.head? = some '|'
        · obtain ⟨rfl, head⟩ := bars
          obtain ⟨others, rfl⟩ := List.head?_eq_some_iff.1 head
          exact stable_bars (shorter others (Nat.le_succ _))
        · by_cases start : isNameStart c = true
          · exact stable_word start shorter
          · exact stable_other quote bars start (shorter rest (Nat.le_refl _))

theorem respelling_again_changes_nothing (dialect : Dialect) (text : String) :
    dialect.respell (dialect.respell text) = dialect.respell text := by
  apply String.toList_inj.1
  rw [respell_chars, respell_chars]
  exact (all_stable dialect text.toList).settled false

-- The words run together, and neither is called any more by a name that is renamed.
example : Dialect.sqlite.respell "NOW()substring(a)" = "CURRENT_TIMESTAMPSUBSTR(a)" := by decide +kernel

end Dialect

end PipeSql
