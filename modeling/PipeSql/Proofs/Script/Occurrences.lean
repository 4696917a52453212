import PipeSql.Proofs.Token.Lexed
import PipeSql.Script.Screen

set_option autoImplicit false

namespace PipeSql

namespace Text

theorem blank_not_word {c : Char} (blank : isBlank c = true) : isWordChar c = false := by
  have beyond : ∀ code ∈ [0x85, 0xA0, 0x1680, 0x2000, 0x2001, 0x2002, 0x2003, 0x2004, 0x2005, 0x2006, 0x2007, 0x2008,
      0x2009, 0x200A, 0x2028, 0x2029, 0x202F, 0x205F, 0x3000], inRanges code wordRanges = false := by decide +kernel
  unfold isWordChar
  split
  · cases part : isNamePart c with
    | false => exact part
    | true =>
      rw [(Token.name_part_visible part).1] at blank
      cases blank
  · apply beyond
    simp only [isBlank, Bool.or_eq_true, Bool.and_eq_true, decide_eq_true_eq, beq_iff_eq] at blank
    simp only [List.mem_cons, List.not_mem_nil, or_false]
    omega

theorem ascii_word {c : Char} (ascii : c.toNat < 128) : isWordChar c = isNamePart c := by
  rw [isWordChar, if_pos ascii, isNamePart]

theorem name_part_word {c : Char} (part : isNamePart c = true) : isWordChar c = true := by
  have ascii : c.toNat < 128 := by
    simp only [isNamePart, Char.isAlphanum, Bool.or_eq_true, Token.alpha_iff, Token.digit_iff, beq_iff_eq] at part
    rcases part with part | rfl
    · omega
    · decide
  rw [ascii_word ascii, part]

end Text

namespace Screen

-- The text goes on with another kind of character, or ends.
def Stops (keep : Char → Bool) (chars : List Char) : Prop :=
  ∀ c, chars.head? = some c → keep c = false

theorem stops_cons {keep : Char → Bool} {c : Char} (other : keep c = false) (rest : List Char) :
    Stops keep (c :: rest) := by
  rintro _ ⟨⟩
  exact other

theorem runs_unique {keep : Char → Bool} {first rest second others : List Char}
    (same : first ++ rest = second ++ others)
    (left : ∀ c ∈ first, keep c = true) (right : ∀ c ∈ second, keep c = true) (stops : Stops keep rest)
    (ends : Stops keep others) : first = second ∧ rest = others := by
  obtain ⟨take, drop⟩ := Token.take_while_delimited left stops
  obtain ⟨taken, dropped⟩ := Token.take_while_delimited right ends
  rw [same] at take drop
  exact ⟨take.symm.trans taken, drop.symm.trans dropped⟩

namespace Place

-- The place between two parts of a text.
def between (before after : List Char) : Place :=
  ⟨before.getLast?, Text.width before, after⟩

theorem advance_between (before : List Char) (c : Char) (rest : List Char) :
    (between before (c :: rest)).advance c rest = between (before ++ [c]) rest := by
  simp [between, advance, Text.width_append, Text.width]

theorem char_between (before : List Char) (c : Char) (rest : List Char) :
    (between before (c :: rest)).char? c = some (between (before ++ [c]) rest) := by
  rw [← advance_between]
  exact if_pos rfl

theorem run_between (keep : Char → Bool) (before after : List Char) :
    (between before after).run keep =
      (after.takeWhile keep, between (before ++ after.takeWhile keep) (after.dropWhile keep)) := by
  induction after generalizing before with
  | nil => simp [run, run.go, between]
  | cons c rest ih =>
    have further := ih (before ++ [c])
    rw [← advance_between] at further
    unfold run at further ⊢
    by_cases kept : keep c = true
    · simp only [between, advance] at further ⊢
      simp [run.go, kept, further]
    · simp [run.go, kept, between]

theorem run_stops {keep : Char → Bool} (before : List Char) {chars rest : List Char}
    (kept : ∀ c ∈ chars, keep c = true) (stops : Stops keep rest) :
    (between before (chars ++ rest)).run keep = (chars, between (before ++ chars) rest) := by
  obtain ⟨take, drop⟩ := Token.take_while_delimited kept stops
  rw [run_between, take, drop]

theorem run_cases (keep : Char → Bool) (before after : List Char) :
    ∃ chars rest, after = chars ++ rest ∧ (∀ c ∈ chars, keep c = true) ∧ Stops keep rest ∧
      (between before after).run keep = (chars, between (before ++ chars) rest) := by
  refine ⟨after.takeWhile keep, after.dropWhile keep, List.takeWhile_append_dropWhile.symm, ?_, ?_, run_between ..⟩
  · intro c member
    exact List.all_eq_true.1 List.all_takeWhile c member
  · intro c first
    have stopped := List.head?_dropWhile_not keep after
    rw [first] at stopped
    simpa using stopped

theorem blank_stops (before : List Char) {chars rest : List Char} (blank : ∀ c ∈ chars, Text.isBlank c = true)
    (stops : Stops Text.isBlank rest) : (between before (chars ++ rest)).blank = between (before ++ chars) rest := by
  rw [Place.blank, run_stops before blank stops]

end Place

open Place

-- A name as it is searched for in a text.
structure IsName (chars : List Char) : Prop where
  start : ∃ c rest, chars = c :: rest ∧ Text.isNameStart c = true
  word : ∀ c ∈ chars, Text.isWordChar c = true

theorem name_visible {chars : List Char} (name : IsName chars) (rest : List Char) :
    Stops Text.isBlank (chars ++ rest) := by
  obtain ⟨c, others, rfl, start⟩ := name.start
  refine stops_cons ?_ _
  cases blank : Text.isBlank c with
  | false => rfl
  | true =>
    have word := name.word c (.head _)
    rw [Text.blank_not_word blank] at word
    cases word

theorem name_between (before : List Char) {chars rest : List Char} (name : IsName chars)
    (stops : Stops Text.isWordChar rest) :
    name? (between before (chars ++ rest)) =
      some (⟨String.ofList chars, ⟨Text.width before, Text.width (before ++ chars)⟩⟩,
        between (before ++ chars) rest) := by
  have found := run_stops before name.word stops
  obtain ⟨c, others, rfl, start⟩ := name.start
  unfold name?
  rw [found]
  simp [between, start, Word.ofRun]

theorem name_of_run {c : Char} {others chars rest : List Char} (start : Text.isNameStart c = true)
    (same : c :: others = chars ++ rest) (kept : ∀ d ∈ chars, Text.isWordChar d = true)
    (stops : Stops Text.isWordChar rest) : IsName chars := by
  refine ⟨?_, kept⟩
  cases chars with
  | nil =>
    have word := Text.name_part_word (Text.name_start_part start)
    rw [stops c (by rw [← List.nil_append rest, ← same]; rfl)] at word
    cases word
  | cons d tail =>
    cases same
    exact ⟨_, tail, rfl, start⟩

theorem name_found {before after : List Char} {word : Word} {place : Place}
    (found : name? (between before after) = some (word, place)) :
    ∃ chars rest, after = chars ++ rest ∧ IsName chars ∧ Stops Text.isWordChar rest ∧
      place = between (before ++ chars) rest := by
  obtain ⟨chars, rest, same, kept, stops, run⟩ := run_cases Text.isWordChar before after
  unfold name? at found
  rw [run] at found
  cases after with
  | nil => cases found
  | cons c others =>
    by_cases start : Text.isNameStart c = true
    · simp only [between, start, if_true, Option.some.injEq, Prod.mk.injEq] at found
      exact ⟨chars, rest, same, name_of_run start same kept stops, stops, found.2.symm⟩
    · simp [between, start] at found

theorem char_found {before after : List Char} {c : Char} {place : Place}
    (found : (between before after).char? c = some place) :
    ∃ rest, after = c :: rest ∧ place = between (before ++ [c]) rest := by
  unfold char? at found
  cases after with
  | nil => cases found
  | cons d rest =>
    simp only [between] at found
    split at found
    · rename_i same
      subst same
      cases found
      exact ⟨rest, rfl, advance_between before d rest⟩
    · cases found

theorem blank_found (before after : List Char) :
    ∃ gap rest, after = gap ++ rest ∧ (∀ c ∈ gap, Text.isBlank c = true) ∧
      (between before after).blank = between (before ++ gap) rest := by
  obtain ⟨gap, rest, same, blank, -, run⟩ := run_cases Text.isBlank before after
  exact ⟨gap, rest, same, blank, by rw [Place.blank, run]⟩

-- The text of a binding up to the end of the first name of its value.
structure LetText (gap name middle last value : List Char) : Prop where
  parted : gap ≠ []
  gap : ∀ c ∈ gap, Text.isBlank c = true
  name : IsName name
  middle : ∀ c ∈ middle, Text.isBlank c = true
  last : ∀ c ∈ last, Text.isBlank c = true
  value : IsName value

def letText (gap name middle last value : List Char) : List Char :=
  ['l', 'e', 't'] ++ (gap ++ (name ++ (middle ++ '=' :: (last ++ value))))

theorem boundary_between {before after : List Char} :
    (between before after).atBoundary = true ↔ ∀ c, before.getLast? = some c → Text.isWordChar c = false := by
  simp only [between, atBoundary]
  cases before.getLast? <;> simp

theorem boundary_passed {place : Place} (boundary : place.atBoundary = true) :
    (guard (place.atBoundary = true) : Option Unit) = some () :=
  if_pos boundary

theorem equals_visible : Text.isBlank '=' = false ∧ Text.isWordChar '=' = false := by
  decide +kernel

theorem parted_stops_word {gap : List Char} (parted : gap ≠ []) (blank : ∀ c ∈ gap, Text.isBlank c = true)
    (rest : List Char) : Stops Text.isWordChar (gap ++ rest) := by
  cases gap with
  | nil => exact absurd rfl parted
  | cons c others => exact stops_cons (Text.blank_not_word (blank c (.head _))) _

theorem blank_stops_word {gap rest : List Char} (blank : ∀ c ∈ gap, Text.isBlank c = true)
    (stops : Stops Text.isWordChar rest) : Stops Text.isWordChar (gap ++ rest) := by
  by_cases empty : gap = []
  · rw [empty]
    exact stops
  · exact parted_stops_word empty blank rest

theorem blank_parted {before gap rest : List Char} (parted : gap ≠ []) (blank : ∀ c ∈ gap, Text.isBlank c = true)
    (stops : Stops Text.isBlank rest) :
    (between before (gap ++ rest)).blank? = some (between (before ++ gap) rest) := by
  have passed := blank_stops before blank stops
  unfold blank?
  rw [passed]
  cases gap with
  | nil => exact absurd rfl parted
  | cons c others => simp [between, blank c (.head _)]

theorem blank_found_parted {before after : List Char} {place : Place}
    (found : (between before after).blank? = some place) :
    ∃ gap rest, after = gap ++ rest ∧ (∀ c ∈ gap, Text.isBlank c = true) ∧ gap ≠ [] ∧
      place = between (before ++ gap) rest := by
  obtain ⟨gap, rest, same, blank, stops, run⟩ := run_cases Text.isBlank before after
  unfold blank? at found
  cases after with
  | nil => cases found
  | cons c others =>
    simp only [between] at found
    split at found
    · rename_i first
      refine ⟨gap, rest, same, blank, ?_, ?_⟩
      · rintro rfl
        rw [stops c (by rw [← List.nil_append rest, ← same]; rfl)] at first
        cases first
      · rw [← Option.some.inj found]
        exact congrArg Prod.snd run
    · cases found

theorem let_binding_between (before : List Char) {gap name middle last value rest : List Char}
    (text : LetText gap name middle last value) (boundary : ∀ c, before.getLast? = some c → Text.isWordChar c = false)
    (stops : Stops Text.isWordChar rest) :
    ∃ second place, letBinding (between before (letText gap name middle last value ++ rest)) = some
      ((⟨String.ofList name, ⟨Text.width (before ++ ['l'] ++ ['e'] ++ ['t'] ++ gap),
        Text.width (before ++ ['l'] ++ ['e'] ++ ['t'] ++ gap ++ name)⟩⟩, second), place) := by
  have whole : letText gap name middle last value ++ rest =
      'l' :: 'e' :: 't' :: (gap ++ (name ++ (middle ++ '=' :: (last ++ (value ++ rest))))) := by
    simp [letText]
  have start := (@boundary_between before (letText gap name middle last value ++ rest)).2 boundary
  rw [whole] at start ⊢
  have parted := @blank_parted (before ++ ['l'] ++ ['e'] ++ ['t']) _ _ text.parted text.gap (name_visible text.name
    (middle ++ '=' :: (last ++ (value ++ rest))))
  have bound := name_between (before ++ ['l'] ++ ['e'] ++ ['t'] ++ gap) text.name
    (blank_stops_word text.middle (stops_cons equals_visible.2 (last ++ (value ++ rest))))
  have passed := blank_stops (before ++ ['l'] ++ ['e'] ++ ['t'] ++ gap ++ name) text.middle
    (stops_cons equals_visible.1 (last ++ (value ++ rest)))
  have opened := blank_stops (before ++ ['l'] ++ ['e'] ++ ['t'] ++ gap ++ name ++ middle ++ ['=']) text.last
    (name_visible text.value rest)
  have valued := name_between (before ++ ['l'] ++ ['e'] ++ ['t'] ++ gap ++ name ++ middle ++ ['='] ++ last)
    text.value stops
  unfold letBinding
  rw [boundary_passed start]
  simp only [Option.bind_eq_bind, Option.pure_def, Option.bind_some, char_between, parted, bound, passed, opened, valued]
  exact ⟨_, _, rfl⟩

theorem let_binding_found {before after : List Char} {found : Word × Word} {place : Place}
    (matched : letBinding (between before after) = some (found, place)) :
    ∃ gap name middle last value rest, LetText gap name middle last value ∧
      after = letText gap name middle last value ++ rest ∧ Stops Text.isWordChar rest ∧
      place = between (before ++ letText gap name middle last value) rest := by
  unfold letBinding at matched
  obtain ⟨-, -, matched⟩ := Option.bind_eq_some_iff.1 matched
  simp only [Option.bind_eq_bind, Option.bind_eq_some_iff, Option.pure_def, Option.some.injEq, Prod.mk.injEq] at matched
  obtain ⟨p1, h1, p2, h2, p3, h3, p4, h4, ⟨bound, p5⟩, h5, p6, h6, ⟨first, p7⟩, h7, -, h8⟩ := matched
  obtain ⟨rest, rfl, rfl⟩ := char_found h1
  obtain ⟨rest, rfl, rfl⟩ := char_found h2
  obtain ⟨rest, rfl, rfl⟩ := char_found h3
  obtain ⟨gap, rest, rfl, blank, parted, rfl⟩ := blank_found_parted h4
  obtain ⟨name, rest, rfl, isName, -, rfl⟩ := name_found h5
  obtain ⟨middle, rest, rfl, middleBlank, passed⟩ := blank_found (before ++ ['l'] ++ ['e'] ++ ['t'] ++ gap ++ name) rest
  rw [passed] at h6
  obtain ⟨rest, rfl, rfl⟩ := char_found h6
  obtain ⟨last, rest, rfl, lastBlank, opened⟩ :=
    blank_found (before ++ ['l'] ++ ['e'] ++ ['t'] ++ gap ++ name ++ middle ++ ['=']) rest
  rw [opened] at h7
  obtain ⟨value, rest, rfl, isValue, stops, rfl⟩ := name_found h7
  refine ⟨gap, name, middle, last, value, rest, ⟨parted, blank, isName, middleBlank, lastBlank, isValue⟩, ?_, stops, ?_⟩
  · simp [letText]
  · rw [← h8]
    simp [letText]

-- A match is found, if all that begins in front of it ends there.
theorem occurrences_reach {α : Type} {pattern : Place → Option (α × Place)} {before after : List Char} {found : α}
    {place : Place} (matched : pattern (between before after) = some (found, place))
    (clear : ∀ early late other next, before = early ++ late → late ≠ [] →
      pattern (between early (late ++ after)) = some (other, next) →
      ∃ used rest, late = used ++ rest ∧ used ≠ [] ∧ next = between (early ++ used) (rest ++ after))
    (fuel : Nat) (early late : List Char) (split : before = early ++ late) (enough : late.length < fuel) :
    found ∈ occurrences pattern fuel (between early (late ++ after)) := by
  induction fuel generalizing early late with
  | zero => cases enough
  | succ fuel ih =>
    cases late with
    | nil =>
      rw [List.append_nil] at split
      subst split
      rw [List.nil_append, occurrences, matched]
      exact .head _
    | cons c rest =>
      rw [occurrences]
      cases tried : pattern (between early (c :: rest ++ after)) with
      | none =>
        have further := ih (early ++ [c]) rest (by simpa using split) (by simpa using enough)
        rw [← advance_between] at further
        exact further
      | some result =>
        obtain ⟨other, next⟩ := result
        obtain ⟨used, left, same, filled, rfl⟩ := clear early (c :: rest) other next split (by simp) tried
        have shorter := congrArg List.length same
        have positive := List.length_pos_iff.2 filled
        rw [List.length_append] at shorter
        refine .tail _ (ih (early ++ used) left ?_ ?_)
        · rw [split, same, List.append_assoc]
        · omega

-- The front of a text goes beyond a word, if it does not end in a word.
theorem word_passed {front rest word others : List Char} (same : front ++ rest = word ++ others)
    (chars : ∀ c ∈ word, Text.isWordChar c = true) (filled : front ≠ [])
    (boundary : ∀ c, front.getLast? = some c → Text.isWordChar c = false) :
    ∃ more, front = word ++ more ∧ others = more ++ rest ∧ more ≠ [] := by
  have outside : ∀ c, front.getLast? = some c → c ∉ word := by
    intro c last member
    have word := chars c member
    rw [boundary c last] at word
    cases word
  obtain ⟨c, last⟩ : ∃ c, front.getLast? = some c := ⟨_, List.getLast?_eq_some_getLast filled⟩
  rcases List.append_eq_append_iff.1 same with ⟨more, rfl, -⟩ | ⟨more, rfl, split⟩
  · exact absurd (List.mem_append_left _ (List.mem_of_getLast? last)) (outside c last)
  · refine ⟨more, rfl, split, ?_⟩
    rintro rfl
    rw [List.append_nil] at last outside
    exact outside c last (List.mem_of_getLast? last)

-- The front of a text goes beyond blanks, if something visible follows it.
theorem blanks_passed {front rest gap others : List Char} (same : front ++ rest = gap ++ others)
    (blank : ∀ c ∈ gap, Text.isBlank c = true) (visible : Stops Text.isBlank rest) :
    ∃ more, front = gap ++ more ∧ others = more ++ rest := by
  rcases List.append_eq_append_iff.1 same with ⟨more, rfl, split⟩ | ⟨more, rfl, split⟩
  · cases more with
    | nil => exact ⟨[], by simp, by simpa using split.symm⟩
    | cons c more =>
      have shown := visible c (by rw [split]; rfl)
      rw [blank c (by simp)] at shown
      cases shown
  · exact ⟨more, rfl, split⟩

theorem last_of_append (front : List Char) {rest : List Char} {c : Char} (last : rest.getLast? = some c) :
    (front ++ rest).getLast? = some c := by
  rw [List.getLast?_append, last]
  rfl

theorem let_is_word : ∀ c ∈ ['l', 'e', 't'], Text.isWordChar c = true :=
  List.all_eq_true.1 (by decide)

-- Where a binding begins, no binding in front of it reaches, unless it is taken for a value.
theorem let_bindings_clear {before gap rest : List Char} (parted : gap ≠ [])
    (blank : ∀ c ∈ gap, Text.isBlank c = true) (visible : Stops Text.isBlank rest) (unequal : rest.head? ≠ some '=')
    (boundary : ∀ c, before.getLast? = some c → Text.isWordChar c = false)
    (free : ∀ front last, before = front ++ '=' :: last → ¬ ∀ c ∈ last, Text.isBlank c = true) (early late : List Char)
    (other : Word × Word) (next : Place) (split : before = early ++ late) (filled : late ≠ [])
    (matched : letBinding (between early (late ++ (['l', 'e', 't'] ++ (gap ++ rest)))) = some (other, next)) :
    ∃ used left, late = used ++ left ∧ used ≠ [] ∧
      next = between (early ++ used) (left ++ (['l', 'e', 't'] ++ (gap ++ rest))) := by
  obtain ⟨first, name, middle, last, value, tail, text, same, -, rfl⟩ := let_binding_found matched
  have ended : ∀ c, late.getLast? = some c → Text.isWordChar c = false := fun c found =>
    boundary c (split ▸ last_of_append early found)
  have letVisible : Stops Text.isBlank (['l', 'e', 't'] ++ (gap ++ rest)) := stops_cons (by decide) _
  have parts : late ++ (['l', 'e', 't'] ++ (gap ++ rest)) =
      ['l', 'e', 't'] ++ (first ++ (name ++ (middle ++ ('=' :: (last ++ (value ++ tail)))))) := by
    rw [same, letText]
    simp
  -- the parts of the binding in front are passed one by one
  obtain ⟨fromGap, rfl, gapSplit, gapFilled⟩ := word_passed parts let_is_word filled ended
  have gapEnded : ∀ c, fromGap.getLast? = some c → Text.isWordChar c = false := fun c found =>
    ended c (last_of_append _ found)
  obtain ⟨fromName, rfl, nameSplit⟩ := blanks_passed gapSplit.symm text.gap letVisible
  by_cases nameFilled : fromName = []
  · -- the binding would begin where the name of the binding in front stands
    subst nameFilled
    rw [List.nil_append] at nameSplit
    have nameEnds := blank_stops_word text.middle (stops_cons equals_visible.2 (last ++ (value ++ tail)))
    obtain ⟨-, behind⟩ := runs_unique nameSplit text.name.word let_is_word nameEnds (parted_stops_word parted blank rest)
    obtain ⟨-, behind⟩ := runs_unique behind text.middle blank (stops_cons equals_visible.1 _) visible
    exact absurd (congrArg List.head? behind).symm unequal
  · have nameEnded : ∀ c, fromName.getLast? = some c → Text.isWordChar c = false := fun c found =>
      gapEnded c (last_of_append _ found)
    obtain ⟨fromMiddle, rfl, middleSplit, -⟩ := word_passed nameSplit.symm text.name.word nameFilled nameEnded
    obtain ⟨fromMark, rfl, markSplit⟩ := blanks_passed middleSplit.symm text.middle letVisible
    cases fromMark with
    | nil => cases markSplit
    | cons mark fromLast =>
      obtain ⟨rfl, lastSplit⟩ := List.cons.inj markSplit
      obtain ⟨fromValue, rfl, valueSplit⟩ := blanks_passed lastSplit.symm text.last letVisible
      by_cases valueFilled : fromValue = []
      · subst valueFilled
        refine absurd text.last (free (early ++ ['l', 'e', 't'] ++ first ++ name ++ middle) last ?_)
        rw [split]
        simp
      · have valueEnded : ∀ c, fromValue.getLast? = some c → Text.isWordChar c = false := fun c found =>
          nameEnded c (by simp [List.getLast?_append, List.getLast?_cons, found])
        obtain ⟨left, rfl, tailSplit, -⟩ := word_passed valueSplit.symm text.value.word valueFilled valueEnded
        refine ⟨letText first name middle last value, left, ?_, by simp [letText], ?_⟩
        · simp [letText]
        · rw [tailSplit]

end Screen

end PipeSql
