import PipeSql.Text

set_option autoImplicit false

namespace PipeSql.WhereText

inductive Mark where
  | opening
  | closing
  | word (text : String)
deriving DecidableEq, Repr

def finished (word : List Char) : List Mark :=
  if word.isEmpty then [] else [.word (String.ofList word)]

-- The marks of a text, behind the beginning of a word. Between quotes nothing ends a word; a doubled quote
-- closes and opens them at once.
def marks (quoted : Bool) (word : List Char) : List Char → List Mark
  | [] => finished word
  | c :: rest =>
    if c = '\'' then marks (!quoted) (word ++ [c]) rest
    else if quoted then marks quoted (word ++ [c]) rest
    else if c = ' ' then finished word ++ marks false [] rest
    else if c = '(' then finished word ++ .opening :: marks false [] rest
    else if c = ')' then finished word ++ .closing :: marks false [] rest
    else marks false (word ++ [c]) rest

-- The words before the next parenthesis.
def words : List Mark → List String
  | .word text :: rest => text :: words rest
  | _ => []

-- The conditions that do not depend on a row.
def constant? (text : String) : Option Bool :=
  if text = "1=1" then some true else if text = "1=0" then some false else none

def comparators : List String :=
  ["=", "<>", "<", "<=", ">", ">=", "LIKE"]

-- The words of the condition that stands at the beginning.
def condition? : List String → Option (List String)
  | [] => none
  | first :: rest =>
    if (constant? first).isSome then some [first]
    else if rest.take 2 = ["IS", "NULL"] then some [first, "IS", "NULL"]
    else if rest.take 3 = ["IS", "NOT", "NULL"] then some [first, "IS", "NOT", "NULL"]
    else
      match rest with
      | operator :: second :: _ =>
        if comparators.contains operator then some [first, operator, second] else none
      | _ => none

def holds (valuation : String → Bool) (condition : String) : Bool :=
  (constant? condition).getD (valuation condition)

-- What is known of a group while it is read: whether an alternative before the last OR holds, whether all
-- operands behind it hold, and whether the next operand is negated.
structure Group where
  held : Bool
  holding : Bool
  negated : Bool

namespace Group

def empty : Group :=
  ⟨false, true, false⟩

def negate (group : Group) : Group :=
  { group with negated := !group.negated }

def meet (group : Group) (value : Bool) : Group :=
  ⟨group.held, group.holding && (value != group.negated), false⟩

def value (group : Group) : Bool :=
  group.held || group.holding

def alternative (group : Group) : Group :=
  ⟨group.value, true, false⟩

end Group

variable (valuation : String → Bool)

mutual

-- Reads on where an operand must follow.
def operand (stack : List Group) (group : Group) : List Mark → Option Bool
  | .opening :: rest => operand (group :: stack) .empty rest
  | .word text :: rest =>
    match condition? (text :: words rest) with
    | some condition =>
      connective (condition.length - 1) stack (group.meet (holds valuation (Text.joinWith " " condition))) rest
    | none => if text = "NOT" then operand stack group.negate rest else none
  | .closing :: _ | [] => none

-- Reads on behind the first word of an operand, of which so many more follow.
def connective (more : Nat) (stack : List Group) (group : Group) : List Mark → Option Bool
  | [] => if more = 0 ∧ stack.isEmpty then some group.value else none
  | mark :: rest =>
    match more, mark with
    | more + 1, _ => connective more stack group rest
    | 0, .word text =>
      if text = "AND" then operand stack group rest
      else if text = "OR" then operand stack group.alternative rest
      else none
    | 0, .closing =>
      match stack with
      | [] => none
      | outer :: stack => connective 0 stack (outer.meet group.value) rest
    | 0, .opening => none

end

-- The truth value of a text, if it can be read.
def truth? (text : String) : Option Bool :=
  operand valuation [] .empty (marks false [] text.toList)

-- Without WHERE every row is kept.
def kept? : Option String → Option Bool
  | none => some true
  | some text => truth? valuation text

example : truth? (· == "a = 1") "a = 1 OR NOT (b IS NULL) AND c > 2" = some true := by decide

-- What follows a text does not continue its last word.
def Ends (rest : List Char) : Prop :=
  ∀ c, rest.head? = some c → c = ' ' ∨ c = ')'

theorem ends_nil : Ends [] := by
  simp [Ends]

theorem ends_space (rest : List Char) : Ends (' ' :: rest) := by
  simp [Ends]

theorem ends_closing (rest : List Char) : Ends (')' :: rest) := by
  simp [Ends]

theorem marks_end {rest : List Char} (ends : Ends rest) (word : List Char) :
    marks false word rest = finished word ++ marks false [] rest := by
  cases rest with
  | nil => simp [marks, finished]
  | cons c rest => rcases ends c rfl with rfl | rfl <;> simp [marks, finished]

-- Characters that are part of a word wherever they stand.
def isBare (c : Char) : Bool :=
  c != '\'' && c != ' ' && c != '(' && c != ')'

theorem marks_bare {chars : List Char} (bare : ∀ c ∈ chars, isBare c = true) (word rest : List Char) :
    marks false word (chars ++ rest) = marks false (word ++ chars) rest := by
  induction chars generalizing word with
  | nil => rw [List.nil_append, List.append_nil]
  | cons c chars ih =>
    have first := bare c (.head _)
    simp only [isBare, Bool.and_eq_true, bne_iff_ne] at first
    obtain ⟨⟨⟨quote, space⟩, opening⟩, closing⟩ := first
    have others := ih (fun d member => bare d (.tail _ member)) (word ++ [c])
    simpa [marks, quote, space, opening, closing] using others

theorem marks_quoted (value word rest : List Char) :
    marks true word (Text.doubleQuotes value ++ rest) = marks true (word ++ Text.doubleQuotes value) rest := by
  induction value generalizing word with
  | nil => rw [Text.doubleQuotes, List.nil_append, List.append_nil]
  | cons c value ih =>
    by_cases quote : c = '\''
    · subst quote
      simpa [Text.doubleQuotes, marks] using ih (word ++ ['\'', '\''])
    · simpa [Text.doubleQuotes, marks, quote] using ih (word ++ [c])

-- The text is one word, whatever follows it.
def IsWord (text : String) : Prop :=
  ∀ rest, Ends rest → marks false [] (text.toList ++ rest) = .word text :: marks false [] rest

theorem bare_word {text : String} (filled : text ≠ "") (bare : text.toList.all isBare = true) : IsWord text := by
  intro rest ends
  rw [marks_bare (List.all_eq_true.1 bare), List.nil_append, marks_end ends]
  simp [finished, filled]

theorem literal_word (value : String) : IsWord (Text.sqlLiteral value) := by
  intro rest ends
  have chars : (Text.sqlLiteral value).toList = '\'' :: Text.doubleQuotes value.toList ++ ['\''] := by
    simp [Text.sqlLiteral, Text.escapeLiteral]
  have text : String.ofList ('\'' :: Text.doubleQuotes value.toList ++ ['\'']) = Text.sqlLiteral value := by
    rw [← chars, String.ofList_toList]
  rw [chars, List.append_assoc]
  change marks true ['\''] (Text.doubleQuotes value.toList ++ '\'' :: rest) = _
  rw [marks_quoted]
  change marks false (['\''] ++ Text.doubleQuotes value.toList ++ ['\'']) rest = _
  rw [marks_end ends, ← text]
  simp [finished]

theorem marks_joined (first : String) (tail : List String) (each : ∀ word ∈ first :: tail, IsWord word)
    {rest : List Char} (ends : Ends rest) :
    marks false [] ((Text.joinWith " " (first :: tail)).toList ++ rest) =
      .word first :: (tail.map .word ++ marks false [] rest) := by
  induction tail generalizing first with
  | nil => exact each first (.head _) rest ends
  | cons second tail ih =>
    have chars : (Text.joinWith " " (first :: second :: tail)).toList ++ rest =
        first.toList ++ ' ' :: ((Text.joinWith " " (second :: tail)).toList ++ rest) := by
      simp [Text.joinWith]
    rw [chars, each first (.head _) _ (ends_space _)]
    exact congrArg _ (ih second fun word member => each word (.tail _ member))

variable {valuation} {text first second : String} {value other : Bool}

-- Read where an operand may stand, the text is one of this value.
def Factor (valuation : String → Bool) (text : String) (value : Bool) : Prop :=
  ∀ stack group rest, Ends rest → operand valuation stack group (marks false [] (text.toList ++ rest)) =
    connective valuation 0 stack (group.meet value) (marks false [] rest)

-- Several operands with AND between them: NOT in front of them would be that of the first.
def Factors (valuation : String → Bool) (text : String) (value : Bool) : Prop :=
  ∀ stack group rest, group.negated = false → Ends rest →
    operand valuation stack group (marks false [] (text.toList ++ rest)) =
      connective valuation 0 stack (group.meet value) (marks false [] rest)

-- A group of its own: AND on either side would be that of one alternative.
def Alternatives (valuation : String → Bool) (text : String) (value : Bool) : Prop :=
  ∃ group : Group, group.value = value ∧ ∀ stack rest, Ends rest →
    operand valuation stack .empty (marks false [] (text.toList ++ rest)) =
      connective valuation 0 stack group (marks false [] rest)

theorem factors_single (factor : Factor valuation text value) : Factors valuation text value :=
  fun stack group rest _ ends => factor stack group rest ends

theorem alternatives_single (factors : Factors valuation text value) : Alternatives valuation text value := by
  refine ⟨Group.empty.meet value, ?_, fun stack rest ends => factors stack .empty rest rfl ends⟩
  cases value <;> rfl

theorem enclosed_chars (text : String) (rest : List Char) :
    ("(" ++ text ++ ")").toList ++ rest = '(' :: (text.toList ++ ')' :: rest) := by
  simp

theorem factor_enclosed (alternatives : Alternatives valuation text value) :
    Factor valuation ("(" ++ text ++ ")") value := by
  obtain ⟨inner, known, reads⟩ := alternatives
  intro stack group rest ends
  rw [enclosed_chars]
  change operand valuation (group :: stack) .empty (marks false [] (text.toList ++ ')' :: rest)) = _
  rw [reads _ _ (ends_closing rest), ← known]
  rfl

theorem meet_negated (group : Group) (value : Bool) : group.negate.meet value = group.meet (!value) := by
  obtain ⟨held, holding, negated⟩ := group
  cases value <;> cases negated <;> rfl

theorem factor_negated (alternatives : Alternatives valuation text value) :
    Factor valuation ("NOT (" ++ text ++ ")") (!value) := by
  intro stack group rest ends
  have chars : ("NOT (" ++ text ++ ")").toList ++ rest = 'N' :: 'O' :: 'T' :: ' ' :: '(' :: (text.toList ++ ')' :: rest) := by
    simp
  have enclosed := factor_enclosed alternatives stack group.negate rest ends
  rw [enclosed_chars, meet_negated] at enclosed
  rw [chars, ← enclosed]
  rfl

theorem factors_and (left : Factors valuation first value) (right : Factors valuation second other) :
    Factors valuation (first ++ " AND " ++ second) (value && other) := by
  intro stack group rest plain ends
  have chars : (first ++ " AND " ++ second).toList ++ rest =
      first.toList ++ ' ' :: 'A' :: 'N' :: 'D' :: ' ' :: (second.toList ++ rest) := by
    simp
  rw [chars, left stack group _ plain (ends_space _)]
  change operand valuation stack (group.meet value) (marks false [] (second.toList ++ rest)) = _
  rw [right stack _ rest rfl ends]
  simp [Group.meet, plain, Bool.and_assoc]

theorem alternatives_or (left : Factors valuation first value) (right : Factors valuation second other) :
    Alternatives valuation (first ++ " OR " ++ second) (value || other) := by
  refine ⟨(Group.empty.meet value).alternative.meet other, ?_, ?_⟩
  · cases value <;> cases other <;> rfl
  · intro stack rest ends
    have chars : (first ++ " OR " ++ second).toList ++ rest =
        first.toList ++ ' ' :: 'O' :: 'R' :: ' ' :: (second.toList ++ rest) := by
      simp
    rw [chars, left stack _ _ rfl (ends_space _)]
    change operand valuation stack (Group.empty.meet value).alternative (marks false [] (second.toList ++ rest)) = _
    rw [right stack _ rest rfl ends]

theorem truth_alternatives (alternatives : Alternatives valuation text value) : truth? valuation text = some value := by
  obtain ⟨group, known, reads⟩ := alternatives
  have whole := reads [] [] ends_nil
  rw [List.append_nil] at whole
  rw [truth?, whole, ← known]
  rfl

theorem alternatives_no_parenthesis (alternatives : Alternatives valuation text value) : text ≠ "(" ∧ text ≠ ")" := by
  have read := truth_alternatives alternatives
  constructor
  all_goals
    rintro rfl
    cases read

theorem words_append (tail : List String) (others : List Mark) : words (tail.map .word ++ others) = tail ++ words others := by
  induction tail with
  | nil => rfl
  | cons next tail ih => rw [List.map_cons, List.cons_append, words, ih, List.cons_append]

theorem connective_words (tail : List String) (stack : List Group) (group : Group) (others : List Mark) :
    connective valuation tail.length stack group (tail.map .word ++ others) = connective valuation 0 stack group others := by
  induction tail with
  | nil => rfl
  | cons next tail ih => exact ih

theorem factor_condition {tail : List String} (each : ∀ word ∈ first :: tail, IsWord word)
    (found : ∀ others, condition? (first :: (tail ++ others)) = some (first :: tail)) :
    Factor valuation (Text.joinWith " " (first :: tail)) (holds valuation (Text.joinWith " " (first :: tail))) := by
  intro stack group rest ends
  rw [marks_joined first tail each ends, operand, words_append, found]
  exact connective_words tail stack _ _

-- A condition of several words is no constant one.
theorem holds_joined (valuation : String → Bool) (first second : String) (tail : List String) :
    holds valuation (Text.joinWith " " (first :: second :: tail)) =
      valuation (Text.joinWith " " (first :: second :: tail)) := by
  have spaced : ∀ text : String, ' ' ∉ text.toList → Text.joinWith " " (first :: second :: tail) ≠ text := by
    rintro text absent rfl
    simp [Text.joinWith] at absent
  rw [holds, constant?, if_neg (spaced "1=1" (by decide)), if_neg (spaced "1=0" (by decide)), Option.getD_none]

theorem factor_joined {tail : List String} (each : ∀ word ∈ first :: second :: tail, IsWord word)
    (found : ∀ others, condition? (first :: (second :: tail ++ others)) = some (first :: second :: tail)) :
    Factor valuation (Text.joinWith " " (first :: second :: tail))
      (valuation (Text.joinWith " " (first :: second :: tail))) := by
  rw [← holds_joined valuation]
  exact factor_condition each found

theorem factor_constant (constant : constant? text = some value) (word : IsWord text) : Factor valuation text value := by
  have known : holds valuation text = value := by
    rw [holds, constant, Option.getD_some]
  rw [← known]
  change Factor valuation (Text.joinWith " " [text]) (holds valuation (Text.joinWith " " [text]))
  apply factor_condition
  · simpa using word
  · simp [condition?, constant]

theorem comparator_word {operator : String} (known : operator ∈ comparators) : IsWord operator ∧ operator ≠ "IS" := by
  have every : comparators.all (fun word => word != "" && word.toList.all isBare && word != "IS") = true := by decide
  have this := List.all_eq_true.1 every operator known
  simp only [Bool.and_eq_true, bne_iff_ne] at this
  exact ⟨bare_word this.1.1 this.1.2, this.2⟩

theorem factor_comparison {operator : String} (left : IsWord first) (changes : constant? first = none)
    (known : operator ∈ comparators) (right : IsWord second) :
    Factor valuation (first ++ " " ++ operator ++ " " ++ second) (valuation (first ++ " " ++ operator ++ " " ++ second)) := by
  obtain ⟨middle, noTest⟩ := comparator_word known
  have text : Text.joinWith " " [first, operator, second] = first ++ " " ++ operator ++ " " ++ second := by
    simp [Text.joinWith, String.append_assoc]
  rw [← text]
  apply factor_joined
  · simp [left, middle, right]
  · simp [condition?, changes, known, noTest]

theorem factor_null_test {test : List String} (known : test = ["NULL"] ∨ test = ["NOT", "NULL"]) (left : IsWord first)
    (changes : constant? first = none) :
    Factor valuation (Text.joinWith " " (first :: "IS" :: test)) (valuation (Text.joinWith " " (first :: "IS" :: test))) := by
  have keywords : IsWord "IS" ∧ IsWord "NOT" ∧ IsWord "NULL" :=
    ⟨bare_word (by decide) (by decide), bare_word (by decide) (by decide), bare_word (by decide) (by decide)⟩
  rcases known with rfl | rfl
  all_goals
    apply factor_joined
    · simp [left, keywords]
    · simp [condition?, changes]

end PipeSql.WhereText
